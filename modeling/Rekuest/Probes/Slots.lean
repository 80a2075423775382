import Rekuest.Concurrent.Custody
import Rekuest.Probes.Store

/-!
# The callers' slots

A caller's counter is raised before its probe is written and lowered after its
terminal was claimed, in commands of their own.  So the counter is the number of
its live probes and of the slots that handlers under way have in their hands.
-/

namespace Rekuest.Probes

open Concurrent

/-- A probe of the caller that has no terminal yet. -/
def isLiveOf (k : Nat) (h : Option ProbeHash) : Bool :=
  h.any fun h => h.caller == some k && h.done.isNone

/-- How many probes of the caller were created and have no terminal yet. -/
def live (r : Redis) (k : Nat) : Nat :=
  (List.range r.fresh).countP fun probe => isLiveOf k (r.probes probe)

/-- What a handler has in its hands: a slot it took or has to give back, a key it
saw, or a terminal it claimed. -/
inductive Hand
  | empty
  | seen (probe : Nat)
  | claimed (probe : Nat)
  | slot (caller : Nat)
  deriving DecidableEq, Repr

namespace Hand

/-- With what in its hands a handler runs a command. -/
def permits (t : Hand) : Command → Prop
  | .decr caller => t = .slot caller
  | .create new => t = .slot new.caller
  | .hsetnxDone probe _ | .record probe .. => t = .seen probe
  | .finish probe .. => t = .claimed probe
  | .incr _ | .isKey _ => t = .empty
  | _ => True

/-- What it has after the command answered. -/
def next (t : Hand) : (op : Command) → op.Res → Hand
  | .incr caller, _ => .slot caller
  | .decr _, _ | .create _, _ | .record .., _ => .empty
  | .isKey probe, found => if found = true then .seen probe else .empty
  | .hsetnxDone probe _, won => if won = true then .claimed probe else .empty
  | .finish .., (_, state) =>
      match state.caller with
      | some caller => .slot caller
      | none => .empty
  | .mint, _ | .deliver .., _ | .hgetall _, _ | .hgetDone _, _ | .srem .., _
  | .smembers _, _ | .publish _, _ | .expireProbe _, _ | .expireSlots _, _ => t

/-- A key it saw is still there. -/
def fits (r : Redis) : Hand → Prop
  | .seen probe | .claimed probe => (r.probes probe).isSome
  | .empty | .slot _ => True

/-- The slots of the caller among it: a claimed terminal brings its probe's. -/
def weight (k : Nat) (r : Redis) : Hand → Int
  | .slot caller => if caller = k then 1 else 0
  | .claimed probe => if (r.probes probe).bind (·.caller) = some k then 1 else 0
  | .empty | .seen _ => 0

end Hand

/-- No delivery of a probe's Assign fails, and no key expires. -/
def DeliversAndLasts (e : Env) (op : Command) (_ : Redis) : Prop :=
  match op with
  | .deliver _ (.assign _) => e.delivery.isSome
  | .expireProbe _ | .expireSlots _ => False
  | _ => True

instance (e : Env) (op : Command) (r : Redis) : Decidable (DeliversAndLasts e op r) :=
  match op with
  | .deliver _ (.assign _) => inferInstanceAs (Decidable (e.delivery.isSome = true))
  | .expireProbe _ | .expireSlots _ => isFalse id
  | .deliver _ (.cancel _) | .deliver _ (.pause _) | .deliver _ (.resume ..) | .incr _ | .decr _
  | .mint | .create _ | .hgetall _ | .hgetDone _ | .isKey _ | .record .. | .hsetnxDone ..
  | .finish .. | .srem .. | .smembers _ | .publish _ => isTrue trivial

/-- Ids from `fresh` on name no probe. -/
def NoneAhead (r : Redis) : Prop := ∀ probe, r.fresh ≤ probe → r.probes probe = none

/-- The slots of one caller: what its counter shows beyond its live probes is in
the handlers' hands. -/
def slotCustody (maxInflight : Int) (k : Nat) : Custody (machine maxInflight) Hand Int where
  inv := NoneAhead
  allowed := DeliversAndLasts
  permits := Hand.permits
  next := Hand.next
  empty := .empty
  fits := Hand.fits
  weight := Hand.weight k
  account r := r.inflight k - live r k

/-! ## Counting live probes -/

/-- One element counted otherwise moves the count by one element. -/
theorem countP_range_eq {p q : Nat → Bool} {x n : Nat} (hLt : x < n)
    (h : ∀ y, y ≠ x → q y = p y) :
    (List.range n).countP q + (if p x then 1 else 0) =
      (List.range n).countP p + if q x then 1 else 0 := by
  induction n with
  | zero => omega
  | succ n ih =>
      rw [List.range_succ, List.countP_append, List.countP_append, List.countP_singleton,
        List.countP_singleton]
      by_cases hEq : x = n
      · subst hEq
        have hBelow : (List.range x).countP q = (List.range x).countP p := by
          apply List.countP_congr
          intro y hy
          rw [h y (Nat.ne_of_lt (List.mem_range.mp hy))]
        omega
      · have := ih (by omega)
        rw [h n (Ne.symm hEq)]
        omega

variable {r : Redis} {k probe : Nat} {f : ProbeHash → ProbeHash}

theorem live_write (hLt : probe < r.fresh) :
    live (r.write probe f) k + (if isLiveOf k (r.probes probe) then 1 else 0) =
      live r k + if isLiveOf k (some (f ((r.probes probe).getD {}))) then 1 else 0 := by
  have hCount := countP_range_eq (p := fun p => isLiveOf k (r.probes p))
    (q := fun p => isLiveOf k ((r.write probe f).probes p)) hLt
    (fun y hy => by rw [Redis.write_ne r f hy])
  rw [Redis.write_self] at hCount
  exact hCount

/-- A write that keeps caller and terminal of a probe that is there keeps the
count. -/
theorem live_write_same {h : ProbeHash} (hLt : probe < r.fresh) (hHash : r.probes probe = some h)
    (hCaller : (f h).caller = h.caller) (hDone : (f h).done = h.done) :
    live (r.write probe f) k = live r k := by
  have hCount := live_write (k := k) (f := f) hLt
  rw [hHash, Option.getD_some] at hCount
  have hSame : isLiveOf k (some (f h)) = isLiveOf k (some h) := by
    simp [isLiveOf, hCaller, hDone]
  rw [hSame] at hCount
  omega

theorem live_create {new : NewProbe} (e : Env) :
    live (Command.exec e (.create new) r).2 k =
      live r k + if new.caller = k then 1 else 0 := by
  show (List.range (r.fresh + 1)).countP _ = _
  rw [List.range_succ, List.countP_append, List.countP_singleton]
  have hBelow : ((List.range r.fresh).countP fun p =>
      isLiveOf k ((Command.exec e (.create new) r).2.probes p)) = live r k := by
    apply List.countP_congr
    intro y hy
    show isLiveOf k (Function.update r.probes r.fresh _ y) = true ↔ _
    rw [Function.update_of_ne (Nat.ne_of_lt (List.mem_range.mp hy))]
  have hNew : isLiveOf k ((Command.exec e (.create new) r).2.probes r.fresh) =
      (new.caller == k) := by
    show isLiveOf k (Function.update r.probes r.fresh (some new.hash) r.fresh) = _
    rw [Function.update_self]
    simp [isLiveOf, NewProbe.hash]
  rw [hBelow, hNew]
  simp

/-! ## The commands -/

variable {maxInflight : Int} {e : Env} {t : Hand}

theorem slots_addSlots {caller : Nat} {n : Int} :
    (r.addSlots caller n).inflight k = r.inflight k + if caller = k then n else 0 := by
  show Function.update r.inflight caller _ k = _
  by_cases hEq : k = caller
  · subst hEq
    simp
  · rw [Function.update_of_ne hEq, if_neg (Ne.symm hEq), Int.add_zero]

theorem NoneAhead.lt (h : NoneAhead r) (hSome : (r.probes probe).isSome) : probe < r.fresh := by
  rcases Nat.lt_or_ge probe r.fresh with hLt | hGe
  · exact hLt
  · rw [h probe hGe] at hSome
    cases hSome

theorem NoneAhead.write (h : NoneAhead r) (hLt : probe < r.fresh) :
    NoneAhead (r.write probe f) := by
  intro p hp
  have hNe : p ≠ probe := by
    intro hEq
    have : r.fresh ≤ p := hp
    omega
  rw [Redis.write_ne r f hNe]
  exact h p hp

theorem NoneAhead.create (h : NoneAhead r) (new : NewProbe) :
    NoneAhead (Command.exec e (.create new) r).2 := by
  intro p hp
  have hAbove : r.fresh + 1 ≤ p := hp
  show Function.update r.probes r.fresh _ p = none
  rw [Function.update_of_ne (by omega)]
  exact h p (by omega)

/-- What a command that only reads or broadcasts moves: nothing. -/
theorem own_of_same {r' : Redis} {u : Hand} (hInv : NoneAhead r) (hFits : u.fits r)
    (hWeight : u.weight k r = t.weight k r) (hProbes : r'.probes = r.probes)
    (hFresh : r'.fresh = r.fresh) (hSlots : r'.inflight = r.inflight) :
    NoneAhead r' ∧ u.fits r' ∧
      (r'.inflight k - live r' k : Int) + t.weight k r =
        r.inflight k - live r k + u.weight k r' := by
  have hWeight' : u.weight k r' = u.weight k r := by
    cases u <;> simp [Hand.weight, hProbes]
  have hLive : live r' k = live r k := by simp [live, hProbes, hFresh]
  refine ⟨?_, ?_, ?_⟩
  · intro p hp
    rw [hProbes]
    exact hInv p (hFresh ▸ hp)
  · cases u with
    | seen | claimed => simpa [Hand.fits, hProbes] using hFits
    | empty | slot => trivial
  · rw [hWeight', hWeight, hSlots, hLive]

/-- A write to a probe that is there moves what it makes of the probe's being
live. -/
theorem own_of_write {t' : Hand} {h : ProbeHash} (hInv : NoneAhead r)
    (hHash : r.probes probe = some h) (hCaller : (f h).caller = h.caller)
    (hDone : (f h).done = h.done) (hFits : t'.fits (r.write probe f))
    (hWeight : t'.weight k (r.write probe f) = t.weight k r) :
    NoneAhead (r.write probe f) ∧ t'.fits (r.write probe f) ∧
      ((r.write probe f).inflight k - live (r.write probe f) k : Int) + t.weight k r =
        r.inflight k - live r k + t'.weight k (r.write probe f) := by
  have hLt : probe < r.fresh := hInv.lt (by rw [hHash]; rfl)
  refine ⟨hInv.write hLt, hFits, ?_⟩
  rw [live_write_same hLt hHash hCaller hDone, hWeight]
  rfl

/-- A claim takes its probe from the live ones, and its slot is in the claimer's
hands. -/
theorem own_of_claim {h : ProbeHash} {kind : TaskEventKind} (hInv : NoneAhead r)
    (hHash : r.probes probe = some h) (hDone : h.done = none) :
    NoneAhead (r.write probe fun h => { h with done := some kind }) ∧
      Hand.fits (r.write probe fun h => { h with done := some kind }) (.claimed probe) ∧
      ((r.write probe fun h => { h with done := some kind }).inflight k -
            live (r.write probe fun h => { h with done := some kind }) k : Int) + 0 =
        r.inflight k - live r k +
          Hand.weight k (r.write probe fun h => { h with done := some kind }) (.claimed probe) := by
  have hLt : probe < r.fresh := hInv.lt (by rw [hHash]; rfl)
  refine ⟨hInv.write hLt, ?_, ?_⟩
  · show ((r.write probe _).probes probe).isSome = true
    rw [Redis.write_self]
    rfl
  · have hCount := live_write (k := k) (f := fun h => { h with done := some kind }) hLt
    rw [hHash, Option.getD_some] at hCount
    have hSlots : (r.write probe fun h => { h with done := some kind }).inflight = r.inflight := rfl
    rw [hSlots, Hand.weight, Redis.write_self, hHash, Option.getD_some]
    simp only [isLiveOf, hDone, Option.any_some, Option.isNone_none, Option.isNone_some,
      Bool.and_true, Bool.and_false, beq_iff_eq, Option.bind_some, Bool.false_eq_true,
      if_false, Nat.add_zero] at hCount ⊢
    split at hCount
    case isTrue hOwn =>
      rw [if_pos hOwn]
      omega
    case isFalse hOther =>
      rw [if_neg hOther]
      omega

/-- The slot of a claimed terminal is the one the finished state names. -/
theorem own_of_finish {h : ProbeHash} (hInv : NoneAhead r) (hHash : r.probes probe = some h)
    (hCaller : (f h).caller = h.caller) (hDone : (f h).done = h.done) {t' : Hand}
    (hHand : t' = match (f h).caller with
      | some caller => .slot caller
      | none => .empty) :
    NoneAhead (r.write probe f) ∧ t'.fits (r.write probe f) ∧
      ((r.write probe f).inflight k - live (r.write probe f) k : Int) +
          Hand.weight k r (.claimed probe) =
        r.inflight k - live r k + t'.weight k (r.write probe f) := by
  rw [hCaller] at hHand
  apply own_of_write hInv hHash hCaller hDone
  · subst hHand
    split <;> trivial
  · subst hHand
    cases hOf : h.caller <;> simp [Hand.weight, hHash, hOf]

theorem slot_own (op : Command) (hInv : NoneAhead r) (hFits : t.fits r) (hPermits : t.permits op)
    (hAllowed : DeliversAndLasts e op r) :
    NoneAhead (Command.exec e op r).2 ∧
      (t.next op (Command.exec e op r).1).fits (Command.exec e op r).2 ∧
      ((Command.exec e op r).2.inflight k - live (Command.exec e op r).2 k : Int) +
          t.weight k r =
        r.inflight k - live r k +
          (t.next op (Command.exec e op r).1).weight k (Command.exec e op r).2 := by
  cases op with
  | mint | deliver | hgetall | hgetDone | srem | smembers | publish =>
      exact own_of_same hInv hFits rfl rfl rfl rfl
  | isKey probe =>
      cases hPermits
      refine own_of_same hInv ?_ ?_ rfl rfl rfl
      · show Hand.fits r (if (r.probes probe).isSome = true then _ else _)
        split
        case isTrue hSome => exact hSome
        case isFalse => trivial
      · show Hand.weight k r (if (r.probes probe).isSome = true then _ else _) = 0
        split <;> rfl
  | incr caller =>
      cases hPermits
      refine ⟨hInv, trivial, ?_⟩
      show ((r.addSlots caller 1).inflight k - live r k : Int) + 0 = _ + Hand.weight k _ (.slot caller)
      rw [slots_addSlots, Hand.weight]
      omega
  | decr caller =>
      cases hPermits
      refine ⟨hInv, trivial, ?_⟩
      show ((r.addSlots caller (-1)).inflight k - live r k : Int) + Hand.weight k r (.slot caller) = _ + 0
      rw [slots_addSlots, Hand.weight]
      split <;> omega
  | create new =>
      cases hPermits
      refine ⟨hInv.create new, trivial, ?_⟩
      rw [live_create]
      show (r.inflight k - (live r k + _ : Nat) : Int) + Hand.weight k r (.slot new.caller) = _ + 0
      rw [Hand.weight]
      split <;> omega
  | record probe kind returns =>
      cases hPermits
      obtain ⟨h, hHash⟩ := Option.isSome_iff_exists.mp hFits
      exact own_of_write hInv hHash rfl rfl trivial rfl
  | hsetnxDone probe kind =>
      cases hPermits
      obtain ⟨h, hHash⟩ := Option.isSome_iff_exists.mp hFits
      cases hDone : h.done with
      | some =>
          have hExec : Command.exec e (.hsetnxDone probe kind) r = (false, r) := by
            simp [Command.exec, hHash, hDone]
          rw [hExec]
          exact own_of_same (t := .seen probe) (u := .empty) hInv trivial rfl rfl rfl rfl
      | none =>
          have hExec : Command.exec e (.hsetnxDone probe kind) r =
              (true, r.write probe fun h => { h with done := some kind }) := by
            simp [Command.exec, hHash, hDone]
          rw [hExec]
          exact own_of_claim hInv hHash hDone
  | finish probe kind error =>
      cases hPermits
      obtain ⟨h, hHash⟩ := Option.isSome_iff_exists.mp hFits
      exact own_of_finish (f := fun h => { h with seq := h.seq + 1, kind, err := error <|> h.err })
        hInv hHash rfl rfl (by simp only [Hand.next, Command.exec, hHash, Option.getD_some])
  | expireProbe | expireSlots => exact hAllowed.elim

/-- A command keeps the caller of every probe that is there. -/
theorem caller_exec (op : Command) (hInv : NoneAhead r) (hAllowed : DeliversAndLasts e op r)
    {p : Nat} (hSome : (r.probes p).isSome) :
    ((Command.exec e op r).2.probes p).isSome ∧
      ((Command.exec e op r).2.probes p).bind (·.caller) = (r.probes p).bind (·.caller) := by
  have hWrite : ∀ {r' : Redis} {q : Nat} {g : ProbeHash → ProbeHash}, r' = r.write q g →
      (∀ h, (g h).caller = h.caller) → (r'.probes p).isSome ∧
        (r'.probes p).bind (·.caller) = (r.probes p).bind (·.caller) := by
    intro r' q g hEq hKeeps
    subst hEq
    by_cases hEq : p = q
    · subst hEq
      obtain ⟨h, hHash⟩ := Option.isSome_iff_exists.mp hSome
      rw [Redis.write_self, hHash]
      exact ⟨rfl, hKeeps h⟩
    · rw [Redis.write_ne r g hEq]
      exact ⟨hSome, rfl⟩
  cases op with
  | record probe kind returns =>
      exact hWrite (g := fun h => { h with
        seq := h.seq + 1, kind, lastReturns := returns <|> h.lastReturns }) rfl fun _ => rfl
  | finish probe kind error =>
      exact hWrite (g := fun h => { h with seq := h.seq + 1, kind, err := error <|> h.err }) rfl
        fun _ => rfl
  | hsetnxDone probe kind =>
      simp only [Command.exec]
      split
      · exact ⟨hSome, rfl⟩
      · exact hWrite (g := fun h => { h with done := some kind }) rfl fun _ => rfl
  | create new =>
      have hNe : p ≠ r.fresh := Nat.ne_of_lt (hInv.lt hSome)
      have hSame : (Command.exec e (.create new) r).2.probes p = r.probes p :=
        Function.update_of_ne hNe _ _
      rw [hSame]
      exact ⟨hSome, rfl⟩
  | expireProbe | expireSlots => exact hAllowed.elim
  | mint | deliver | hgetall | hgetDone | isKey | incr | decr | srem | smembers | publish =>
      exact ⟨hSome, rfl⟩

theorem hand_exec (op : Command) (hInv : NoneAhead r) (hAllowed : DeliversAndLasts e op r)
    (hFits : t.fits r) :
    t.fits (Command.exec e op r).2 ∧ t.weight k (Command.exec e op r).2 = t.weight k r := by
  cases t with
  | empty | slot => exact ⟨trivial, rfl⟩
  | seen probe => exact ⟨(caller_exec op hInv hAllowed hFits).1, rfl⟩
  | claimed probe =>
      obtain ⟨hSome, hCaller⟩ := caller_exec op hInv hAllowed hFits
      refine ⟨hSome, ?_⟩
      rw [Hand.weight, hCaller]
      rfl

/-! ## The handlers -/

section

variable {maxInflight : Int} {α : Type}

abbrev Follows (maxInflight : Int) (k : Nat) (p : Program Unit) (t : Hand) : Prop :=
  (slotCustody maxInflight k).Follows p t

theorem follows_recordNonterminal {task : Nat} {kind : TaskEventKind} {returns : Option String}
    {g : Option (Int × Option Nat × Origin) → Program Unit}
    (h : ∀ recorded, Follows maxInflight k (g recorded) .empty) :
    Follows maxInflight k ((recordNonterminal task kind returns).bind g) .empty := by
  refine Custody.follows_act trivial fun e r _ _ _ => ?_
  generalize ((machine maxInflight).exec e (.hgetDone task) r).1 = done
  cases (done : Option TaskEventKind) with
  | some => exact h none
  | none =>
      refine Custody.follows_act (Eq.refl Hand.empty) fun e r _ _ _ => ?_
      generalize ((machine maxInflight).exec e (.isKey task) r).1 = found
      cases (found : Bool) with
      | false => exact h none
      | true => exact Custody.follows_act (Eq.refl (Hand.seen task)) fun e r _ _ _ => h _

theorem follows_claimTerminal {task : Nat} {kind : TaskEventKind} {error : Option String}
    {g : Option (Int × ProbeHash) → Program Unit}
    (h : ∀ claimed, Follows maxInflight k (g claimed) .empty) :
    Follows maxInflight k ((claimTerminal task kind error).bind g) .empty := by
  refine Custody.follows_act (Eq.refl Hand.empty) fun e r _ _ _ => ?_
  generalize ((machine maxInflight).exec e (.isKey task) r).1 = found
  cases (found : Bool) with
  | false => exact h none
  | true =>
      refine Custody.follows_act (Eq.refl (Hand.seen task)) fun e r _ _ _ => ?_
      generalize ((machine maxInflight).exec e (.hsetnxDone task kind) r).1 = won
      cases (won : Bool) with
      | false => exact h none
      | true =>
          refine Custody.follows_act (Eq.refl (Hand.claimed task)) fun e r _ _ _ => ?_
          generalize ((machine maxInflight).exec e (.finish task kind error) r).1 = finished
          obtain ⟨seq, agent, caller, origin, kind', seq', done, returns, err⟩ := finished
          refine Custody.follows_act trivial fun e r _ _ _ => ?_
          cases caller with
          | none => exact h _
          | some caller => exact Custody.follows_act (Eq.refl (Hand.slot caller)) fun e r _ _ _ => h _

theorem follows_nonterminal {task : Nat} {kind : TaskEventKind} {event : ProbeEvent}
    {g : Unit → Program Unit} (h : Follows maxInflight k (g ()) .empty) :
    Follows maxInflight k ((nonterminal task kind event).bind g) .empty := by
  rw [nonterminal, Prog.bind_eq, Prog.bind_assoc]
  apply follows_recordNonterminal
  intro recorded
  cases recorded with
  | none => exact h
  | some => exact Custody.follows_act trivial fun e r _ _ _ => h

theorem follows_terminal {task : Nat} {kind : TaskEventKind} {error : Option String}
    {g : Unit → Program Unit} (h : Follows maxInflight k (g ()) .empty) :
    Follows maxInflight k ((terminal task kind error).bind g) .empty := by
  rw [terminal, Prog.bind_eq, Prog.bind_assoc]
  apply follows_claimTerminal
  intro claimed
  cases claimed with
  | none => exact h
  | some => exact Custody.follows_act trivial fun e r _ _ _ => h

theorem follows_probe {caller : Nat} {target : ProbeTarget} {origin : Origin}
    {g : Except String Nat → Program Unit}
    (h : ∀ answer, Follows maxInflight k (g answer) .empty) :
    Follows maxInflight k ((Probes.probe maxInflight caller (.ok target) origin).bind g) .empty := by
  cases hRefusal : targetRefusal target with
  | some =>
      simp only [Probes.probe, hRefusal]
      exact h _
  | none =>
      simp only [Probes.probe, hRefusal, tryAcquireSlot, Prog.bind_eq, Prog.bind_assoc]
      refine Custody.follows_act (Eq.refl Hand.empty) fun e r _ _ _ => ?_
      generalize ((machine maxInflight).exec e (.incr caller) r).1 = count
      change Follows maxInflight k _ (.slot caller)
      simp only [Prog.ret_bind]
      split
      · exact Custody.follows_act (Eq.refl (Hand.slot caller)) fun e r _ _ _ => h _
      · refine Custody.follows_act trivial fun e r _ _ _ => ?_
        generalize ((machine maxInflight).exec e .mint r).1 = minted
        cases (minted : Bool) with
        | false => exact Custody.follows_act (Eq.refl (Hand.slot caller)) fun e r _ _ _ => h _
        | true =>
            refine Custody.follows_act (Eq.refl (Hand.slot caller)) fun e r _ _ _ => ?_
            refine Custody.follows_act trivial fun e r _ _ hDelivers => ?_
            change Follows maxInflight k _ .empty
            simp only [Prog.ret_bind]
            split
            case h_1 => exact h _
            case h_2 hNone =>
              have hDelivery : e.delivery = none := hNone
              have hSome : e.delivery.isSome = true := hDelivers
              rw [hDelivery] at hSome
              cases hSome

theorem follows_handler (request : Request) :
    Follows maxInflight k (request.handler maxInflight) .empty := by
  have hEnd : Follows maxInflight k (.ret ()) .empty := rfl
  cases request with
  | frame agent task report =>
      change Follows maxInflight k ((routeProbe agent task report).bind fun _ => .ret ()) .empty
      cases report with
      | started | paused | resumed | «yield» | log | progress =>
          simp only [routeProbe, Prog.bind_assoc]
          exact follows_nonterminal hEnd
      | cancelled | interrupted | completed | failed | critical =>
          simp only [routeProbe, Prog.bind_assoc]
          exact follows_terminal hEnd
      | controlRequest | lock | effect | other => exact hEnd
  | failAll agent =>
      refine Custody.follows_act trivial fun e r _ _ _ => ?_
      generalize ((machine maxInflight).exec e (.smembers agent) r).1 = probes
      apply Custody.follows_forEach
      · intro task _ g hNext
        exact follows_terminal hNext
      · show Follows maxInflight k (forgetAgentCalls agent probes) .empty
        rw [forgetAgentCalls]
        split
        · exact hEnd
        · exact Custody.follows_act trivial fun e r _ _ _ => hEnd
  | probe caller target origin =>
      cases target with
      | error => exact hEnd
      | ok target => exact follows_probe fun _ => hEnd
  | control caller task kind =>
      change Follows maxInflight k ((Probes.control caller task kind).bind fun _ => .ret ()) .empty
      simp only [Probes.control, Prog.bind_eq, Prog.bind_assoc]
      refine Custody.follows_act trivial fun e r _ _ _ => ?_
      generalize ((machine maxInflight).exec e (.hgetall task) r).1 = state
      cases (state : Option ProbeHash) with
      | none => exact hEnd
      | some state =>
          simp only [Prog.ret_bind]
          split
          · exact hEnd
          · split
            · exact hEnd
            · rw [Prog.bind_assoc]
              apply follows_nonterminal
              refine Custody.follows_act trivial fun e r _ _ _ => ?_
              generalize ((machine maxInflight).exec e
                (.deliver (state.agent.getD 0) (kind.frame task)) r).1 = delivery
              cases (delivery : Option Bool) with
              | none => exact hEnd
              | some => exact Custody.follows_act trivial fun e r _ _ _ => hEnd
  | expireProbe | expireSlots =>
      exact Custody.follows_act trivial fun e r _ _ hAllowed => hAllowed.elim

end

theorem slotCustody_sound (maxInflight : Int) (k : Nat) : (slotCustody maxInflight k).Sound where
  start := follows_handler
  fits_empty := fun _ => trivial
  weight_empty := fun _ => rfl
  own := fun _ op _ _ hInv hFits hPermits hAllowed => slot_own op hInv hFits hPermits hAllowed
  others := fun _ op _ _ _ hInv _ _ hAllowed hFits => hand_exec op hInv hAllowed hFits

/-! ## Along a run -/

/-- No probe was ever created, and no slot taken. -/
structure Initial (c : ProbesConfig) : Prop where
  none : ∀ probe, c.state.probes probe = none
  slots : ∀ caller, c.state.inflight caller = 0
  idle : c.threads = []

/-- How many handlers are under way. -/
def underWay (c : ProbesConfig) : Nat := c.threads.countP fun p => !p.isRet

/-- What `try_acquire_slot` finds when it takes a slot. -/
def admits (maxInflight : Int) (r : Redis) (k : Nat) : Prop :=
  (Command.exec {} (.incr k) r).1 ≤ maxInflight

/-- A caller's counter is its live probes, up to what the handlers under way have
taken and not given back; where none is, it is exactly that, and admits by it. -/
structure SlotsExact (maxInflight : Int) (c : ProbesConfig) (k : Nat) : Prop where
  nonneg : 0 ≤ c.state.inflight k
  least : live c.state k ≤ c.state.inflight k
  most : c.state.inflight k ≤ live c.state k + underWay c
  quiet : c.quiescent = true → c.state.inflight k = live c.state k ∧
    (admits maxInflight c.state k ↔ live c.state k < maxInflight)

theorem weight_nonneg {r : Redis} {k : Nat} (t : Hand) : 0 ≤ t.weight k r := by
  cases t with
  | empty | seen => exact Int.le_refl 0
  | claimed | slot =>
      rw [Hand.weight]
      split <;> decide

theorem weight_le_one {r : Redis} {k : Nat} (t : Hand) : t.weight k r ≤ 1 := by
  cases t with
  | empty | seen => exact Int.zero_le_ofNat 1
  | claimed | slot =>
      rw [Hand.weight]
      split <;> decide

/-- What is in all hands is at most the number of handlers under way. -/
theorem sum_weight_le {r : Redis} {k : Nat} {hands : List Hand} {threads : List (Program Unit)}
    (h : List.Forall₂ (fun t p => p.isRet = true → t = .empty) hands threads) :
    0 ≤ (hands.map (Hand.weight k r)).sum ∧
      (hands.map (Hand.weight k r)).sum ≤ threads.countP fun p => !p.isRet := by
  induction h with
  | nil => exact ⟨Int.le_refl 0, Int.le_refl 0⟩
  | @cons t p hands threads hEnd _ ih =>
      have hLow := weight_nonneg (r := r) (k := k) t
      have hHigh := weight_le_one (r := r) (k := k) t
      rw [List.map_cons, List.sum_cons, List.countP_cons]
      by_cases hRet : p.isRet = true
      · rw [hEnd hRet, hRet]
        simpa [Hand.weight] using ih
      · rw [if_pos (by simpa using hRet)]
        omega

theorem slots_of_balanced {maxInflight : Int} {c : ProbesConfig} {k : Nat} {hands : List Hand}
    (h : (slotCustody maxInflight k).Balanced c hands) : SlotsExact maxInflight c k := by
  have hHands : List.Forall₂ (fun t p => Prog.isRet p = true → t = Hand.empty) hands c.threads := by
    rw [List.forall₂_iff_get]
    refine ⟨h.length, ?_⟩
    intro i hHand hThread hRet
    cases hProg : c.threads.get ⟨i, hThread⟩ with
    | ret b =>
        have hGet : c.threads[i]? = some (.ret b) := by
          rw [List.getElem?_eq_getElem hThread]
          exact congrArg some hProg
        exact h.empty_of_ret hGet (List.getElem?_eq_getElem hHand)
    | act op g =>
        rw [hProg] at hRet
        cases hRet
  have hSum := sum_weight_le (r := c.state) (k := k) hHands
  have hCount : (hands.map (Hand.weight k c.state)).sum ≤ underWay c := hSum.2
  have hAccount : (c.state.inflight k - live c.state k : Int) =
      (hands.map (Hand.weight k c.state)).sum := h.account
  have hMost : c.state.inflight k ≤ live c.state k + underWay c := by omega
  refine ⟨by omega, by omega, hMost, ?_⟩
  intro hQuiet
  have hNone : underWay c = 0 := by
    rw [underWay, List.countP_eq_zero]
    intro p hp
    simpa using List.all_eq_true.mp hQuiet p hp
  have hEq : c.state.inflight k = live c.state k := by omega
  refine ⟨hEq, ?_⟩
  show c.state.inflight k + 1 ≤ maxInflight ↔ _
  omega

/-- Caller 7 fires a probe of agent 0; whether its Assign is delivered. -/
def fireProbe (delivery : Option Bool) (n : Nat) : List (Choice Env Request) :=
  .start (.probe 7 (.ok demoTarget) .graphql) :: Choice.steps 0 n { delivery }

/-- No key expires. -/
def Lasts (_ : Env) (op : Command) (_ : Redis) : Prop :=
  match op with
  | .expireProbe _ | .expireSlots _ => False
  | _ => True

instance (e : Env) (op : Command) (r : Redis) : Decidable (Lasts e op r) :=
  match op with
  | .expireProbe _ | .expireSlots _ => isFalse id
  | .deliver .. | .incr _ | .decr _ | .mint | .create _ | .hgetall _ | .hgetDone _ | .isKey _
  | .record .. | .hsetnxDone .. | .finish .. | .srem .. | .smembers _ | .publish _ =>
      isTrue trivial

/-- The Assign of a probe is not delivered, and its agent is found dead. -/
def failedDelivery : List (Choice Env Request) :=
  fireProbe none 5 ++ .start (.failAll 0) :: Choice.steps 1 8 ({} : Env)

end Rekuest.Probes
