import Rekuest.Trees.Climb
import Rekuest.Backend.Lineage

/-!
# The root a token names

`mint_token_for_task` walks from a task's parent up to the root of its tree and
signs who called it.  A task's `root_id` is the end of its parent chain, however it
was created; the walk stops after `MAX_LINEAGE_DEPTH` hops, so the token of a task
that lies deeper names a task in between.
-/

namespace Rekuest.Backend

open Concurrent Trees

variable {env : Env} {db db' : Database} {s s' : Server}

/-! ## Minting -/

/-- What `mint_token_for_task` reads besides the tasks. -/
structure Mint where
  /-- Of an implementation: `needs_token` and `provenance_audience`. -/
  implementation : Int → Option (Bool × List String)
  /-- Of an agent: the sub of its user and the id of its client. -/
  agent : Int → Option (String × String)
  isHumanByRoles : CallerContext → Bool
  isHumanCaller : Int → Bool
  strict : Bool
  issuer : String
  tokenTtl : Int
  now : Int
  jti : String
  argsHash : Args → String
  /-- Whether `instance.private_key` is configured. -/
  hasKey : Bool

/-- The claims of a token. -/
structure Claims where
  iss : String
  aud : List String
  sub : String
  actSub : String
  actCid : String
  iat : Int
  exp : Int
  jti : String
  tsk : String
  ptk : Option String
  rtk : String
  rcb : Option String
  org : Option String
  ahs : String
  aha : String

/-- The caller of a row and its user's sub. -/
def callerOf (db : Database) (task : Int) : Option (Int × String) := do
  let row ← db.task task
  let id ← row.caller
  let caller ← db.caller id
  let sub ← db.users.lookup caller.user
  pure (id, sub)

/-- `root_caller`: the root of a parent's tree and who called it. -/
def rootCallerOf (db : Database) (parent : Int) : Int × Option (Int × String) :=
  let root := resolveRoot db maxLineageDepth parent
  (root, callerOf db root)

/-- Who caused a tree: the sub of its root's caller, and whether that is a human. -/
def Mint.origin (m : Mint) : Option (Int × String) → Option String × Bool
  | none => (none, false)
  | some (caller, sub) => (some sub, m.isHumanCaller caller)

/-- The root of a task as the mint resolves it, what caused it, and whether that is
a human. -/
def Mint.root (m : Mint) (db : Database) (task : MintTask) (ctx : CallerContext) :
    String × Option String × Bool :=
  match task.parentId with
  | none => (task.id, some ctx.userSub, m.isHumanByRoles ctx)
  | some parent =>
      let (root, caller) := rootCallerOf db parent
      (toString root, m.origin caller)

def noRow : String := "no rows returned by a query that expected to return at least one row"

/-- `mint_token_for_task`, up to the signature: claims, none to skip, or a refusal. -/
def mintTokenForTask (m : Mint) (db : Database) (task : MintTask) (ctx : CallerContext) :
    Except String (Option Claims) := do
  let some (needsToken, audience) := m.implementation task.implementationId
    | throw noRow
  if !needsToken then
    return none
  let some (agentSub, agentClientId) := m.agent task.agentId
    | throw noRow
  let (root, rootCausedBy, rootHuman) := m.root db task ctx
  if !rootHuman then
    if m.strict then
      throw ("Refusing to mint provenance token for task " ++ task.id ++
        ": root principal (root_caused_by=" ++ rootCausedBy.getD "None" ++
        ") is not an accountable human.")
    return none
  if !m.hasKey then
    throw "No provenance private key configured (instance.private_key): a static Ed25519 key is required so tokens verify across process restarts and replicas."
  return some {
    iss := m.issuer
    aud := audience
    sub := ctx.userSub
    actSub := agentSub
    actCid := agentClientId
    iat := m.now
    exp := m.now + m.tokenTtl
    jti := m.jti
    tsk := task.id
    ptk := task.parentId.map toString
    rtk := root
    rcb := rootCausedBy
    org := ctx.organizationIdentifier
    ahs := m.argsHash task.args
    aha := "sha256-canonical-v1" }

/-- What the mint reads of a row. -/
def TaskRow.minted (t : TaskRow) : MintTask where
  id := toString t.id
  parentId := t.parent
  implementationId := t.implementation.getD 0
  agentId := t.agent
  args := t.args

/-- The root of a row's tree by its column. -/
def TaskRow.rootId (t : TaskRow) : Int := t.root.getD t.id

/-! ## The law -/

def Database.parentOf (db : Database) (id : Int) : Option Int := (db.task id).bind (·.parent)

/-- The token of a task is rooted at its tree's root: the column names the end of the
parent chain, the mint resolves that task, and a child's origin and assigner are its
caller. -/
structure TokenRooted (db : Database) (t : TaskRow) : Prop where
  isEnd : db.parentOf t.rootId = none ∧ ∃ n, Above db.parentOf n t.id t.rootId
  resolved : ∀ (m : Mint) (ctx : CallerContext), (m.root db t.minted ctx).1 = toString t.rootId
  origin : t.parent.isSome = true → ∀ (m : Mint) (ctx : CallerContext),
    (m.root db t.minted ctx).2 = m.origin (callerOf db t.rootId)
  assigner : t.parent.isSome = true → ∀ sub : String,
    assigner db t.parent sub = (callerOf db t.rootId).map (·.2)
  claims : ∀ (m : Mint) (ctx : CallerContext) (claims : Claims),
    mintTokenForTask m db t.minted ctx = .ok (some claims) → claims.tsk = toString t.id ∧
      claims.rtk = toString t.rootId ∧
      (t.parent.isSome = true → claims.rcb = (callerOf db t.rootId).map (·.2))

/-- The root lies at most as high above a task as the walk from its parent comes. -/
def Near (db : Database) (t : TaskRow) : Prop :=
  ∃ n ≤ maxLineageDepth + 1, Above db.parentOf n t.id t.rootId

/-! ## The root -/

theorem resolveRoot_eq_climb (k : Nat) (x : Int) :
    resolveRoot db k x = climb db.parentOf k x := by
  induction k generalizing x with
  | zero => rfl
  | succ k ih =>
      rw [resolveRoot, climb, Database.parentOf]
      cases (db.task x).bind (·.parent) with
      | none => rfl
      | some p => exact ih p

theorem rootCaller_eq (db : Database) (parent : Int) :
    rootCaller db parent = (rootCallerOf db parent).2.map (·.2) := by
  unfold rootCaller rootCallerOf callerOf
  simp only [Option.bind_eq_bind, Option.map_bind, Function.comp_def, Option.pure_def,
    Option.map_some]
  congr 1
  funext row
  congr 1
  funext id
  congr 1
  funext caller
  cases db.users.lookup caller.user with
  | none => rfl
  | some sub => rfl

theorem Lineage.falls (h : Lineage db) : Falls db.parentOf Int.toNat := by
  intro x p hParent
  obtain ⟨t, hRow, hp⟩ := Option.bind_eq_some_iff.1 hParent
  have hOlder := h.older x t p hRow hp
  have hBorn := h.born x t hRow
  omega

/-- **The column names the end of the parent chain.** -/
theorem Lineage.isEnd (h : Lineage db) {t : TaskRow} (hRow : db.task t.id = some t) :
    db.parentOf t.rootId = none ∧ ∃ n, Above db.parentOf n t.id t.rootId := by
  generalize hRank : t.id.toNat = rank
  induction rank using Nat.strongRecOn generalizing t with
  | ind rank ih =>
      have hFits := h.fits t.id t hRow
      cases hParent : t.parent with
      | none =>
          rw [hParent] at hFits
          have hRoot : t.rootId = t.id := by
            unfold TaskRow.rootId
            rw [show t.root = none from hFits]
            rfl
          rw [hRoot]
          refine ⟨?_, 0, .self t.id⟩
          rw [Database.parentOf, hRow, Option.bind_some, hParent]
      | some p =>
          rw [hParent] at hFits
          obtain ⟨row, hUp, hRoot⟩ := hFits
          have hId := (task_mem hUp).2
          have hSame : t.rootId = row.rootId := by
            unfold TaskRow.rootId
            rw [hRoot, Option.getD_some, hId]
          have hLt := h.older t.id t p hRow hParent
          have hBorn := h.born p row hUp
          obtain ⟨hTop, n, hAbove⟩ := ih row.id.toNat (by omega) (hId.symm ▸ hUp) rfl
          rw [hSame]
          refine ⟨hTop, n + 1, .link ?_ (hId ▸ hAbove)⟩
          rw [Database.parentOf, hRow, Option.bind_some, hParent]

/-- Ids are told apart by their decimals. -/
theorem toString_injective {x y : Int} (h : toString x = toString y) : x = y := by
  have hNat : ∀ {m n : Nat}, Nat.toDigits 10 m = Nat.toDigits 10 n → m = n := by
    intro m n hDigits
    rw [← Nat.ofDigitChars_ten_toDigits (n := m), hDigits, Nat.ofDigitChars_ten_toDigits]
  have hPositive : ∀ n : Nat, (toString (n : Int)).toList = Nat.toDigits 10 n :=
    fun n => Nat.toList_repr
  have hNegative : ∀ n : Nat, (toString (Int.negSucc n)).toList = '-' :: Nat.toDigits 10 (n + 1) := by
    intro n
    show ("-" ++ Nat.repr (n + 1)).toList = _
    rw [String.toList_append, Nat.toList_repr]
    rfl
  have hMinus : ∀ {m : Nat} {ds : List Char}, Nat.toDigits 10 m ≠ '-' :: ds := by
    intro m ds hEq
    have hDigit : '-'.isDigit = true := by
      apply Nat.isDigit_of_mem_toDigits (b := 10) (n := m) (by decide) (by decide)
      rw [hEq]
      exact List.mem_cons_self
    exact absurd hDigit (by decide)
  have hText := congrArg String.toList h
  cases x with
  | ofNat m =>
      cases y with
      | ofNat n => 
          rw [Int.ofNat_eq_natCast, Int.ofNat_eq_natCast, hPositive, hPositive] at hText
          rw [hNat hText]
      | negSucc n =>
          rw [Int.ofNat_eq_natCast, hPositive, hNegative] at hText
          exact absurd hText hMinus
  | negSucc m =>
      cases y with
      | ofNat n =>
          rw [Int.ofNat_eq_natCast, hPositive, hNegative] at hText
          exact absurd hText.symm hMinus
      | negSucc n =>
          rw [hNegative, hNegative, List.cons.injEq] at hText
          have hSucc := hNat hText.2
          rw [Nat.succ.inj hSucc]

/-- The claims of a token name the root that was resolved. -/
theorem claims_of_mint {m : Mint} {task : MintTask} {ctx : CallerContext} {claims : Claims}
    (h : mintTokenForTask m db task ctx = .ok (some claims)) :
    claims.tsk = task.id ∧ claims.rtk = (m.root db task ctx).1 ∧
      claims.rcb = (m.root db task ctx).2.1 := by
  unfold mintTokenForTask at h
  split at h
  · split at h
    · cases h
    · split at h
      · dsimp only at h
        split at h
        · split at h
          · cases h
          · cases h
        · split at h
          · cases h
          · cases h
            exact ⟨rfl, rfl, rfl⟩
      · cases h
  · cases h

/-- The walk of a child comes to the end of its chain exactly when that is near. -/
theorem Lineage.resolve_iff (h : Lineage db) {t : TaskRow} {p : Int}
    (hRow : db.task t.id = some t) (hParent : t.parent = some p) :
    resolveRoot db maxLineageDepth p = t.rootId ↔ Near db t := by
  have hLink : db.parentOf t.id = some p := by
    rw [Database.parentOf, hRow, Option.bind_some, hParent]
  obtain ⟨hTop, n, hUp⟩ := h.isEnd hRow
  rw [resolveRoot_eq_climb]
  constructor
  · intro hEq
    obtain ⟨m, rfl, hUp'⟩ := hUp.link_first hLink hTop
    have hLe := (climb_eq_iff h.falls hUp' hTop).mp hEq
    exact ⟨m + 1, by omega, hUp⟩
  · rintro ⟨n, hLe, hUp⟩
    obtain ⟨m, rfl, hUp'⟩ := hUp.link_first hLink hTop
    exact climb_of_le hUp' hTop (by omega)

/-- **A token is rooted at its tree's root exactly when the walk comes that far.** -/
theorem Lineage.rooted_iff (h : Lineage db) {t : TaskRow} (hRow : db.task t.id = some t) :
    TokenRooted db t ↔ Near db t := by
  have hEnd := h.isEnd hRow
  cases hParent : t.parent with
  | none =>
      obtain ⟨hTop, n, hUp⟩ := hEnd
      have hLink : db.parentOf t.id = none := by
        rw [Database.parentOf, hRow, Option.bind_some, hParent]
      obtain ⟨rfl, hSelf⟩ := hUp.eq_self hLink
      have hResolved : ∀ (m : Mint) (ctx : CallerContext),
          (m.root db t.minted ctx).1 = toString t.rootId := by
        intro m ctx
        simp [Mint.root, TaskRow.minted, hParent, hSelf]
      constructor
      · intro _
        exact ⟨0, Nat.zero_le _, hUp⟩
      · intro _
        refine ⟨⟨hTop, 0, hUp⟩, hResolved, by simp [hParent], by simp [hParent], ?_⟩
        intro m ctx claims hMint
        obtain ⟨hTsk, hRtk, -⟩ := claims_of_mint hMint
        exact ⟨hTsk, hRtk.trans (hResolved m ctx), by simp [hParent]⟩
  | some p =>
      have hIff := h.resolve_iff hRow hParent
      have hRoot : ∀ (m : Mint) (ctx : CallerContext), m.root db t.minted ctx =
          (toString (resolveRoot db maxLineageDepth p),
            m.origin (callerOf db (resolveRoot db maxLineageDepth p))) := by
        intro m ctx
        simp [Mint.root, TaskRow.minted, hParent, rootCallerOf]
      constructor
      · intro hRooted
        apply hIff.mp
        have hResolved := hRooted.resolved (Mint.mk (fun _ => none) (fun _ => none) (fun _ => true)
          (fun _ => true) true "" 0 0 "" (fun _ => "") true) ⟨none, none, 0, "", 0⟩
        rw [hRoot] at hResolved
        exact toString_injective hResolved
      · intro hNear
        have hResolve := hIff.mpr hNear
        rw [hResolve] at hRoot
        refine ⟨hEnd, ?_, ?_, ?_, ?_⟩
        · intro m ctx
          rw [hRoot]
        · intro _ m ctx
          rw [hRoot]
        · intro _ sub
          rw [hParent, assigner, rootCaller_eq, rootCallerOf, hResolve]
        · intro m ctx claims hMint
          obtain ⟨hTsk, hRtk, hRcb⟩ := claims_of_mint hMint
          rw [hRoot] at hRtk hRcb
          refine ⟨hTsk, hRtk, fun _ => ?_⟩
          rw [hRcb]
          cases callerOf db t.rootId with
          | none => rfl
          | some caller => rfl

/-! ## Every token -/

/-- The tasks a token is minted for, and the database it is minted in: a row just
inserted, in the transaction that inserts it, and a row that is sent again. -/
inductive Mints (env : Env) (s : Server) : Database → TaskRow → Prop
  | plain {principal : CallerContext} {input : AssignInput} {caller task : Int} {new : NewTask}
      {action : ActionRow} {implementation : ImplementationRow} {goesOut : Bool} {db : Database}
      (hPending : .insert principal input caller (.plain new action implementation goesOut) ∈ s.pending)
      (hInsert : insertTask env s.world.db new = some (task, db)) : Mints env s db (new.row env task)
  | wrapper {principal : CallerContext} {input : AssignInput} {caller higherTask lowerTask : Int}
      {new child : NewTask} {lower : ImplementationRow} {lowerAction : ActionRow} {held : Bool}
      {db db' : Database}
      (hPending : .insert principal input caller (.wrapper new child lower lowerAction held) ∈
        s.pending)
      (hInsert : insertTask env s.world.db new = some (higherTask, db))
      (hLower : insertTask env db { child with
          parent := some higherTask
          root := some (new.root.getD higherTask) } = some (lowerTask, db')) :
      Mints env s db' (NewTask.row env { child with
          parent := some higherTask
          root := some (new.root.getD higherTask) } lowerTask)
  | again {id : Int} {t : TaskRow} (hRow : s.world.db.task id = some t) :
      Mints env s s.world.db t

theorem Traced.mints (h : Traced s) {t : TaskRow} (hMints : Mints env s db t) :
    Lineage db ∧ db.task t.id = some t := by
  cases hMints with
  | plain hPending hInsert =>
      obtain ⟨hLineage, -, hRow⟩ := h.lineage.insert hInsert (h.pending _ hPending)
      exact ⟨hLineage, hRow⟩
  | @wrapper _ _ _ higherTask _ new _ _ _ _ _ _ hPending hInsert hLower =>
      obtain ⟨hLineage, -, hHigher⟩ := h.lineage.insert hInsert (h.pending _ hPending)
      obtain ⟨hLineage', -, hRow⟩ :=
        hLineage.insert hLower ⟨new.row env higherTask, hHigher, rfl⟩
      exact ⟨hLineage', hRow⟩
  | again hRow =>
      have hId := (task_mem hRow).2
      exact ⟨h.lineage, hId.symm ▸ hRow⟩

/-- **Whenever a token is minted**, in every run: it is rooted at its tree's root exactly
when that lies at most as many links above its task as the walk and the first one come. -/
theorem token_rooted_iff {registry : Registry} {users organizations : List (Int × String)}
    {resolutions : List Int} {spaces : List (Int × Int)}
    (hRun : (server env).Run System.anyStep
      (starting registry users organizations resolutions spaces) s) {t : TaskRow}
    (hMints : Mints env s db t) : TokenRooted db t ↔ Near db t := by
  obtain ⟨hLineage, hRow⟩ := (traced_run hRun).mints hMints
  exact hLineage.rooted_iff hRow

/-! ### A tree that is too deep -/

/-- A call of the second agent by a task. -/
def callFrom (task : Int) : AssignInput := { action := some "2", parent := some (toString task) }

/-- The call once it is checked. -/
def checkedCall (task : TaskRow) : Admitted where
  action := { id := 2, key := "pass", hash := "p" }
  implementation := { id := 2, interface := "pass", actionId := 2, agentId := 2 }
  frozen := none
  parent := some task.id
  root := some task.rootId
  policy := task.policy
  held := task.policy = .ask
  delayed := false

/-- Anna, by a client of hers. -/
def annaBy (client : Int) : CallerContext := { anna with client := client }

section

variable {n : Int} {row : TaskRow}

theorem parse_call (hLow : 0 ≤ n) (hHigh : n < 2 ^ 63) :
    parseParent (callFrom n) = .ok (some n) := by
  show (parseId (toString n)).map some = .ok (some n)
  rw [parseId_toString hLow hHigh]
  rfl

theorem admission_call (hRegistry : db.registry = pair) (hLow : 0 ≤ n) (hHigh : n < 2 ^ 63)
    (hRow : db.task n = some row) : admission quiet db (callFrom n) 1 = .ok (checkedCall row) := by
  have hParse := parse_call hLow hHigh
  have hTarget : resolveTarget quiet db (callFrom n) 1 =
      .ok ((checkedCall row).action, (checkedCall row).implementation, none) := by
    simp only [resolveTarget, resolveDirectTarget, callFrom, quiet, hRegistry]
    rfl
  have hRoot : rootAndPolicy db (callFrom n) (some n) =
      .ok (some (row.root.getD row.id), row.policy) := by
    simp only [rootAndPolicy, hRow, callFrom]
    rfl
  have hId := (task_mem hRow).2
  subst hId
  refine bind_eq_ok.2 ⟨_, hTarget, bind_eq_ok.2 ⟨(), rfl, bind_eq_ok.2 ⟨(), rfl,
    bind_eq_ok.2 ⟨(), rfl, bind_eq_ok.2 ⟨_, hParse, bind_eq_ok.2 ⟨_, hRoot, bind_eq_ok.2 ⟨(), rfl,
      bind_eq_ok.2 ⟨(), rfl, bind_eq_ok.2 ⟨(), ?_, ?_⟩⟩⟩⟩⟩⟩⟩⟩⟩
  · exact refuseIf_eq_ok.2 (by simp [callFrom])
  · exact pure_eq_ok.2 (by simp [checkedCall, callFrom, TaskRow.rootId])

theorem prepare_call (principal : CallerContext) (caller : Int) (uuids : Nat)
    (hRegistry : db.registry = pair) (hLow : 0 ≤ n) (hHigh : n < 2 ^ 63)
    (hRow : db.task n = some row) : ∃ dependencies,
      prepare quiet db principal (callFrom n) 1 caller none uuids =
        .ok (.plain (plainTask quiet (callFrom n) caller uuids (checkedCall row) none dependencies)
          (checkedCall row).action (checkedCall row).implementation (!(checkedCall row).held)) := by
  have hDependencies : ∃ dependencies,
      dependenciesFor quiet (callFrom n) (checkedCall row) db principal = .ok dependencies := by
    unfold dependenciesFor checkedCall
    simp only [Env.context, hRegistry]
    exact ⟨_, rfl⟩
  obtain ⟨dependencies, hDependencies⟩ := hDependencies
  refine ⟨dependencies, ?_⟩
  unfold prepare
  refine bind_eq_ok.2 ⟨_, admission_call hRegistry hLow hHigh hRow, ?_⟩
  rw [if_neg (by simp [checkedCall])]
  exact bind_eq_ok.2 ⟨_, hDependencies, rfl⟩

theorem existing_call (db : Database) (caller : Int) (hLow : 0 ≤ n) (hHigh : n < 2 ^ 63) :
    existingAssign db caller (callFrom n) (callFrom n).givenReference = .ok none :=
  bind_eq_ok.2 ⟨_, parse_call hLow hHigh, rfl⟩

end

/-- A server whose tasks hang below each other, each called by a client of its own. -/
structure Chained (n : Nat) (s : Server) : Prop where
  lineage : Lineage s.world.db
  idle : s.pending = []
  registry : s.world.db.registry = pair
  users : s.world.db.users = [(1, "anna")]
  organizations : s.world.db.organizations = [(1, "lab")]
  clients : ∀ row ∈ s.world.db.callers, row.client ≤ n
  callers : ∀ t ∈ s.world.db.tasks, ∀ c, t.caller = some c → c < s.world.db.nextCaller
  nextTask : s.world.db.nextTask = n + 1
  last : ∃ row, s.world.db.task n = some row
  deep : Above s.world.db.parentOf (n - 1) n 1 ∧ s.world.db.parentOf 1 = none

/-- The database with one caller more. -/
def Database.calledBy (db : Database) (client : Int) : Database :=
  { db with
    callers := db.callers ++ [⟨db.nextCaller, client, 1, 1⟩]
    nextCaller := db.nextCaller + 1 }

/-- The database with one task more. -/
def Database.grown (db : Database) (new : NewTask) : Database :=
  { db with
    tasks := db.tasks ++ [new.row quiet db.nextTask]
    nextTask := db.nextTask + 1 }

section

variable {n : Nat}

theorem Chained.getCaller (h : Chained n s) :
    getCaller s.world.db (annaBy (n + 1)) 1 = (s.world.db.nextCaller, s.world.db.calledBy (n + 1)) := by
  have hNone : s.world.db.callers.find? (fun row => row.client = (annaBy (n + 1)).client &&
      row.user = (annaBy (n + 1)).user && row.organization = 1) = none := by
    rw [List.find?_eq_none]
    intro row hMem
    have hLe := h.clients row hMem
    have hClient : row.client ≠ (annaBy (n + 1)).client := by
      show row.client ≠ n + 1
      omega
    simp [hClient]
  rw [Backend.getCaller, hNone]
  rfl

/-- The call of the last task passes its checks. -/
theorem Chained.ask (h : Chained n s) (hSmall : n < 2 ^ 63) {row : TaskRow}
    (hRow : s.world.db.task n = some row) : ∃ new action implementation goesOut,
      ask quiet (annaBy (n + 1)) (callFrom n) s.world = some
        ({ s.world with db := s.world.db.calledBy (n + 1), uuids := s.world.uuids + 2 },
          some (.insert (annaBy (n + 1)) (callFrom n) s.world.db.nextCaller
            (.plain new action implementation goesOut))) ∧
      Fits (s.world.db.calledBy (n + 1)) new.parent new.root ∧ new.parent = some (n : Int) ∧
      new.caller = s.world.db.nextCaller ∧ new.parentStep = none ∧ new.callKey = none := by
  obtain ⟨dependencies, hPrepare⟩ := @prepare_call (s.world.db.calledBy (n + 1)) n row
    (annaBy (n + 1)) s.world.db.nextCaller s.world.uuids h.registry (by omega) (by omega) hRow
  have hExisting := @existing_call n (s.world.db.calledBy (n + 1)) s.world.db.nextCaller
    (by omega) (by omega)
  have hFits := prepare_fits hPrepare
  have hParent : some row.id = some (n : Int) := by rw [(task_mem hRow).2]
  refine ⟨plainTask quiet (callFrom n) s.world.db.nextCaller s.world.uuids (checkedCall row) none
    dependencies, (checkedCall row).action, (checkedCall row).implementation,
    !(checkedCall row).held, ?_, hFits, hParent, rfl, rfl, rfl⟩
  unfold Backend.ask
  have hResolution : resolutionOf s.world.db (callFrom n) = .ok none := rfl
  have hOrganization : (annaBy (n + 1)).organization = some 1 := rfl
  simp only [hOrganization, hResolution, Except.toOption, Option.bind_eq_bind, Option.bind_some,
    h.getCaller, hExisting, hPrepare, Option.pure_def]

/-- No constraint is against the call of a new caller. -/
theorem Chained.insert (h : Chained n s) {new : NewTask}
    (hCaller : new.caller = s.world.db.nextCaller)
    (hPlace : new.parentStep = none ∧ new.callKey = none) :
    insertTask quiet (s.world.db.calledBy (n + 1)) new =
      some ((n : Int) + 1, (s.world.db.calledBy (n + 1)).grown new) := by
  have hFree : s.world.db.tasks.any (conflicting · (new.row quiet (n + 1))) = false := by
    rw [List.any_eq_false]
    intro t ht
    have hOther : t.caller ≠ some s.world.db.nextCaller :=
      fun hEq => absurd (h.callers t ht _ hEq) (Int.lt_irrefl _)
    simp [conflicting, NewTask.row, hCaller, hPlace, hOther]
  unfold insertTask
  simp only [Database.calledBy, Database.grown, h.nextTask, hFree, Bool.false_eq_true, if_false]

/-- The last task of a chain calls once more. -/
theorem Chained.grow (h : Chained n s) (hPos : 0 < n) (hSmall : n < 2 ^ 63) :
    ∃ s', (server quiet).Run System.anyStep s s' ∧ Chained (n + 1) s' := by
  obtain ⟨row, hRow⟩ := h.last
  obtain ⟨new, action, implementation, goesOut, hAsk, hFits, hParent, hCaller, hPlace⟩ :=
    h.ask hSmall hRow
  have hInsert := h.insert hCaller hPlace
  have hLoad : CallerContext.load s.world.db 1 (n + 1) (some 1) = some (annaBy (n + 1)) := by
    simp only [CallerContext.load, h.users, h.organizations]
    rfl
  have hWorld : ∃ pushed, insertPrepared quiet (annaBy (n + 1)) (callFrom n) s.world.db.nextCaller
      (.plain new action implementation goesOut)
      { s.world with db := s.world.db.calledBy (n + 1), uuids := s.world.uuids + 2 } =
      { db := (s.world.db.calledBy (n + 1)).grown new
        uuids := s.world.uuids + 2, pushed := pushed } := by
    unfold insertPrepared assignPlain
    simp only [hInsert]
    cases goesOut with
    | false => exact ⟨_, rfl⟩
    | true => exact ⟨_, rfl⟩
  obtain ⟨pushed, hWorld⟩ := hWorld
  have hFirst : (server quiet).next s (.ask 1 (n + 1) 1 (callFrom n)) = some { s with
      world := { s.world with db := s.world.db.calledBy (n + 1), uuids := s.world.uuids + 2 }
      pending := [.insert (annaBy (n + 1)) (callFrom n) s.world.db.nextCaller
        (.plain new action implementation goesOut)] } := by
    simp [server, next, hLoad, hAsk, h.idle]
  have hSecond : (server quiet).next { s with
      world := { s.world with db := s.world.db.calledBy (n + 1), uuids := s.world.uuids + 2 }
      pending := [.insert (annaBy (n + 1)) (callFrom n) s.world.db.nextCaller
        (.plain new action implementation goesOut)] } (.proceed 0) = some { s with
      world := { db := (s.world.db.calledBy (n + 1)).grown new
                 uuids := s.world.uuids + 2, pushed := pushed }, pending := [] } := by
    simp [server, next, hWorld]
  refine ⟨_, (System.Run.refl.step trivial hFirst).step trivial hSecond, ?_⟩
  generalize hDb : (s.world.db.calledBy (n + 1)).grown new = db at hInsert
  have hTasks : db.tasks = s.world.db.tasks ++ [new.row quiet (n + 1)] := by
    rw [← hDb, ← h.nextTask]
    rfl
  have hCalled := h.lineage.rewrites (rewrites_of_getCaller h.lineage.sequenced h.getCaller)
  obtain ⟨hLineage, -, hLast⟩ := hCalled.insert hInsert hFits
  have hTask : ∀ {id t}, s.world.db.task id = some t → db.task id = some t := by
    intro id t hOld
    unfold Database.task at hOld ⊢
    rw [hTasks, List.find?_append, hOld, Option.some_or]
  have hUp : ∀ x p, s.world.db.parentOf x = some p → db.parentOf x = some p := by
    intro x p hx
    obtain ⟨t, hOld, hp⟩ := Option.bind_eq_some_iff.1 hx
    rw [Database.parentOf, hTask hOld, Option.bind_some, hp]
  have hFirstTask : db.parentOf 1 = none := by
    have hOther : db.task 1 = s.world.db.task 1 := by
      have hNot : Decidable.decide ((new.row quiet (n + 1)).id = 1) = false := by
        show Decidable.decide ((n : Int) + 1 = 1) = false
        simp
        omega
      unfold Database.task
      rw [hTasks, List.find?_append, List.find?_singleton, hNot]
      simp
    rw [Database.parentOf, hOther]
    exact h.deep.2
  constructor
  · exact hLineage
  · rfl
  · rw [← hDb]
    exact h.registry
  · rw [← hDb]
    exact h.users
  · rw [← hDb]
    exact h.organizations
  · intro row hMem
    rw [← hDb] at hMem
    rcases List.mem_append.1 hMem with hOld | hMem
    · have hLe := h.clients row hOld
      push_cast
      omega
    · rw [List.mem_singleton.1 hMem]
      push_cast
      omega
  · intro t ht c hc
    rw [← hDb] at ht ⊢
    show c < s.world.db.nextCaller + 1
    rcases List.mem_append.1 ht with hOld | ht
    · have hLt := h.callers t hOld c hc
      omega
    · rw [List.mem_singleton.1 ht] at hc
      have hEq : some new.caller = some c := hc
      rw [hCaller] at hEq
      cases hEq
      omega
  · have hNext : db.nextTask = s.world.db.nextTask + 1 := by rw [← hDb]; rfl
    show db.nextTask = (n + 1 : Nat) + 1
    rw [hNext, h.nextTask]
    push_cast
    omega
  · push_cast
    exact ⟨_, hLast⟩
  · refine ⟨?_, hFirstTask⟩
    have hLink : db.parentOf (n + 1 : Nat) = some (n : Int) := by
      push_cast
      rw [Database.parentOf, hLast, Option.bind_some]
      exact hParent
    have hAbove := Above.link hLink (h.deep.1.mono hUp)
    rwa [show n - 1 + 1 = n + 1 - 1 by omega] at hAbove

end

/-- A task that none called. -/
theorem chained_one : ∃ s, (server quiet).Run System.anyStep pairServer s ∧ Chained 1 s := by
  have hPlay : (server quiet).play System.anyStep pairServer
      [.ask 1 1 1 { action := some "1" }, .proceed 0] = some _ := rfl
  have hRun := System.run_of_play hPlay
  refine ⟨_, hRun, ⟨(traced_run hRun).lineage, rfl, rfl, rfl, rfl, by decide, ?_, rfl, ⟨_, rfl⟩,
    ⟨.self 1, rfl⟩⟩⟩
  intro t ht c hc
  cases List.mem_singleton.1 ht
  cases hc
  decide

/-- Chains of every length come about by assigns, as long as ids last. -/
theorem chained_any {n : Nat} (hPos : 0 < n) (hSmall : n ≤ 2 ^ 63) :
    ∃ s, (server quiet).Run System.anyStep pairServer s ∧ Chained n s := by
  induction n with
  | zero => omega
  | succ n ih =>
      by_cases hFirst : n = 0
      · subst hFirst
        exact chained_one
      · obtain ⟨s, hRun, hChained⟩ := ih (by omega) (by omega)
        obtain ⟨s', hRun', hChained'⟩ := hChained.grow (by omega) (by omega)
        exact ⟨s', hRun.trans hRun', hChained'⟩

/-- The token of a task 258 links below its root names another task as the root. -/
theorem deep_token_names_another : ∃ s db t, (server quiet).Run System.anyStep pairServer s ∧
    Mints quiet s db t ∧ ¬ TokenRooted db t := by
  obtain ⟨s, hRun, h⟩ := chained_any (n := 259) (by omega) (by omega)
  obtain ⟨row, hRow⟩ := h.last
  have hId : row.id = 259 := (task_mem hRow).2
  have hSelf : s.world.db.task row.id = some row := by
    rw [hId]
    exact hRow
  refine ⟨s, s.world.db, row, hRun, .again hRow, ?_⟩
  rw [h.lineage.rooted_iff hSelf]
  rintro ⟨n, hLe, hUp⟩
  have hBound : maxLineageDepth + 1 = 257 := rfl
  have hTop := (h.lineage.isEnd hSelf).1
  rw [hId] at hUp
  obtain ⟨hDeep, hFirst⟩ := h.deep
  have hRoot : row.rootId = 1 := by
    rw [← climb_of_le (k := 258) hUp hTop (by omega)]
    exact climb_of_le hDeep hFirst (Nat.le_refl _)
  have hShort := climb_of_le (k := 257) hUp hTop (by omega)
  rw [hRoot] at hShort
  exact climb_ne_of_lt h.lineage.falls hDeep (by decide) hShort

/-- A run that calls once. -/
def callOnce : List Action :=
  [.ask 1 1 1 { action := some "1" }, .proceed 0, .ask 1 1 1 (callFrom 1), .proceed 0]

def calledOnce : Server := ((server quiet).play System.anyStep pairServer callOnce).getD pairServer

/-- The token of a call names the calling run as its root. -/
theorem token_of_a_call : ∃ db t, Mints quiet calledOnce db t ∧ t.id = 2 ∧ t.rootId = 1 ∧
    TokenRooted db t := by
  have hPlay : (server quiet).play System.anyStep pairServer callOnce = some calledOnce := rfl
  have hTask : (calledOnce.world.db.task 2).map (fun t => (t.id, t.rootId)) = some (2, 1) := rfl
  obtain ⟨t, hRow, ht⟩ := Option.map_eq_some_iff.1 hTask
  obtain ⟨hId, hRoot⟩ := Prod.mk.inj ht
  have hMints : Mints quiet calledOnce calledOnce.world.db t := .again hRow
  refine ⟨_, t, hMints, hId, hRoot, (token_rooted_iff (System.run_of_play hPlay) hMints).mpr
    ⟨1, by decide, ?_⟩⟩
  rw [hId, hRoot]
  exact .link rfl (.self 1)

end Rekuest.Backend
