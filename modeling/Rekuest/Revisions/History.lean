import Mathlib.Data.String.Basic
import Rekuest.Revisions.Head

/-!
# The history of a blok

In every run of commits, guarded and not, of contents that rows hold, a blok is its head revision
at every point: it reads as it, and every revision can be gone back to.  A content that rows do
not hold is read back as another one, which committing what was read writes as a revision of its
own.
-/

namespace Rekuest.Revisions

section

variable {J : Type} [DecidableEq J] {m : Models J} {env : Env m}

/-- The contents that a run commits, and those that are the same as written. -/
def Committed (ops : List (Op m)) (c : BlokContent m) : Prop :=
  ∃ op ∈ ops, ∃ c', op.content = some c' ∧ c'.written = c.written

/-- The hash tells the contents of a run apart. -/
def ToldApart (env : Env m) (ops : List (Op m)) : Prop :=
  ∀ c c', Committed ops c → Committed ops c' → c.hash env = c'.hash env → c.parts env = c'.parts env

theorem Committed.clean {ops : List (Op m)}
    (hFaithful : ∀ op ∈ ops, ∀ c, op.content = some c → Faithful env c)
    (hTold : ToldApart env ops) : Clean env (Committed ops) := by
  constructor
  · rintro c ⟨op, hMem, c', hContent, hWritten⟩
    exact (hFaithful op hMem c' hContent).of_written hWritten
  · exact hTold
  · rintro c c'' ⟨op, hMem, c', hContent, hWritten⟩ hSame
    exact ⟨op, hMem, c', hContent, hWritten.trans hSame⟩

/-- What is committed first is part of what is committed. -/
theorem lawful_before {h : History J} (hBare : Bare h) {ops before rest : List (Op m)}
    (hClean : Clean env (Committed ops)) (hOps : ops = before ++ rest) :
    Lawful env (Committed ops) (run env h before) := by
  apply Lawful.run hClean before (Lawful.start hBare)
  intro op hMem c hContent
  exact ⟨op, hOps ▸ List.mem_append_left rest hMem, c, hContent, rfl⟩

/-- In every run of commits of contents that rows hold, a blok is its head revision in every state
reached; a guarded commit is stale exactly when its base is not the head at that moment; and
after a commit that goes through, the blok and its head both read as the content. -/
theorem blok_is_its_head {h : History J} (hBare : Bare h) {ops : List (Op m)}
    (hFaithful : ∀ op ∈ ops, ∀ c, op.content = some c → Faithful env c)
    (hTold : ToldApart env ops) :
    (∀ before rest, ops = before ++ rest → IsHead env (run env h before)) ∧
      ∀ before view c base guarded rest, ops = before ++ .commit view c base guarded :: rest →
        (commit_revision env view (run env h before) c base guarded =
            .error (.stale base (run env h before).blok.head) ↔
          guarded = true ∧ base ≠ (run env h before).blok.head) ∧
        ∀ h', commit_revision env view (run env h before) c base guarded = .ok h' →
          content_of_blok env h' = some c.written ∧
            ∃ r, head_of h' = some r ∧ content_of_revision env r = some c.written ∧
              r.content_hash = c.hash env := by
  have hClean := Committed.clean hFaithful hTold
  constructor
  · intro before rest hOps
    exact (lawful_before hBare hClean hOps).isHead hClean
  · intro before view c base guarded rest hOps
    have hLawful := lawful_before hBare hClean hOps
    constructor
    · exact stale_iff hLawful.custom
    · intro h' hCommit
      have hMem : Op.commit view c base guarded ∈ ops := by
        rw [hOps]
        exact List.mem_append_right before List.mem_cons_self
      have hCommitted : Committed ops c := ⟨_, hMem, c, rfl, rfl⟩
      obtain ⟨hLawful', hRead, r, hHead⟩ := hLawful.commit hClean hCommitted hCommit
      obtain ⟨c', hBlok, hRevision, hHash⟩ := (hLawful'.isHead hClean).projected r hHead
      have hIs : c' = c.written := by
        rw [hRead] at hBlok
        exact (Option.some.inj hBlok).symm
      rw [hIs] at hRevision hHash
      exact ⟨hRead, r, hHead, hRevision, hHash⟩

end

/-! ## A content that rows do not hold -/

/-- JSON as cells: a list and an object are cells up to the empty one. -/
inductive Cell where
  | null
  | bool (value : Bool)
  | int (value : Int)
  | text (value : String)
  | empty
  | item (first rest : Cell)
  | member (key : String) (value rest : Cell)
  deriving DecidableEq

namespace Cell

def list : List Cell → Cell
  | [] => empty
  | first :: rest => item first (list rest)

def items : Cell → Option (List Cell)
  | item first rest => (items rest).map (first :: ·)
  | empty => some []
  | _ => none

def get (key : String) : Cell → Option Cell
  | member key' value rest => if key' = key then some value else get key rest
  | _ => none

def opt {α : Type} (dump : α → Cell) : Option α → Cell
  | none => null
  | some a => dump a

def read_opt {α : Type} (load : Cell → Option α) : Option Cell → Option (Option α)
  | some null | none => some none
  | some cell => (load cell).map some

def read_text : Cell → Option String
  | text value => some value
  | _ => none

def read_int : Cell → Option Int
  | int value => some value
  | _ => none

def read_bool : Option Cell → Option Bool
  | some (bool value) => some value
  | none => some false
  | _ => none

/-- Models that are their own JSON. -/
def itself : Codec Cell Cell where
  dump := id
  load := some

def models : Models Cell where
  Action := Cell
  State := Cell
  Arg := Cell
  Local := Cell
  Demo := Cell
  Query := Cell
  Subscription := Cell
  action := itself
  state := itself
  arg := itself
  local_ := itself
  demo := itself
  query := itself
  subscription := itself

def dump_dependency (d : AgentDependency models) : Cell :=
  member "key" (text d.key) <| member "app" (opt text d.app) <|
  member "version" (opt text d.version) <| member "name" (opt text d.name) <|
  member "description" (opt text d.description) <| member "optional" (bool d.optional) <|
  member "action_dependencies" (opt list d.action_dependencies) <|
  member "state_dependencies" (opt list d.state_dependencies) <|
  member "auto_resolvable" (bool d.auto_resolvable) <|
  member "mutually_exclusive_keys" (opt (list ∘ List.map text) d.mutually_exclusive_keys) <|
  member "min_viable_instances" (opt int d.min_viable_instances) <|
  member "max_viable_instances" (opt int d.max_viable_instances) <|
  member "prefered_instances" (opt int d.prefered_instances) empty

def load_dependency (cell : Cell) : Option (AgentDependency models) := do
  return {
    key := ← (← cell.get "key").read_text
    app := ← read_opt read_text (cell.get "app")
    version := ← read_opt read_text (cell.get "version")
    name := ← read_opt read_text (cell.get "name")
    description := ← read_opt read_text (cell.get "description")
    optional := ← read_bool (cell.get "optional")
    action_dependencies := ← read_opt items (cell.get "action_dependencies")
    state_dependencies := ← read_opt items (cell.get "state_dependencies")
    auto_resolvable := ← read_bool (cell.get "auto_resolvable")
    mutually_exclusive_keys :=
      ← read_opt (fun keys => keys.items.bind (·.mapM read_text)) (cell.get "mutually_exclusive_keys")
    min_viable_instances := ← read_opt read_int (cell.get "min_viable_instances")
    max_viable_instances := ← read_opt read_int (cell.get "max_viable_instances")
    prefered_instances := ← read_opt read_int (cell.get "prefered_instances") }

/-- Keys in the order of their characters. -/
def by_text : Collation where
  le a b := a ≤ b
  total a b := by
    rw [Bool.or_eq_true, decide_eq_true_iff, decide_eq_true_iff]
    exact le_total a b
  trans a b c hab hbc := decide_eq_true (le_trans (of_decide_eq_true hab) (of_decide_eq_true hbc))
  antisymm a b hab hba := le_antisymm (of_decide_eq_true hab) (of_decide_eq_true hba)

def env : Env models where
  jsonb := id
  empty := empty
  jsonb_empty _ := Iff.rfl
  digest parts := String.intercalate "," (parts.dependencies.filterMap fun d => (d.get "key").bind read_text)
  dependency := { dump := dump_dependency, load := load_dependency }
  collation := by_text

def view : View models where
  locals_resolved content := content.locals
  diagnostics _ := .ok empty

/-- A dependency on any agent. -/
def needs (key : String) : AgentDependency models where
  key := key
  action_dependencies := some []
  state_dependencies := some []

/-- A blok of no components that needs agents of these keys. -/
def content (keys : List String) : BlokContent models where
  components := []
  context := "HTML"
  module := 1
  dependencies := keys.map needs

/-- A blok as it was made. -/
def made : History Cell where
  blok :=
    { components := [], context := "HTML", module := 1, args := [], vocab := 2, catalogs := [],
      locals := [], resolved_locals := [], demo := empty, queries := [], subscriptions := [],
      app := none, diagnostics := empty, head := none }
  dependencies := []
  revisions := []
  sequence := 0

/-- A blok that was made is committed to three times: two contents, and the first again. -/
def edits : List (Op models) :=
  [.commit view (content ["camera"]) none true,
    .commit view (content ["camera", "stage"]) (some 1) true,
    .elsewhere,
    .commit view (content ["camera"]) none false]

theorem made_bare : Bare made := by
  constructor
  · rfl
  · rfl
  · rfl
  · exact List.nodup_nil

theorem content_faithful {keys : List String}
    (hSorted : keys.Pairwise fun a b => by_text.le a b = true ∧ a ≠ b) :
    Faithful env (content keys) := by
  have hKeys : ((content keys).dependencies.map (·.key)) = keys := by
    show (keys.map needs).map (·.key) = keys
    rw [List.map_map]
    conv => rhs; rw [← List.map_id keys]
    rfl
  constructor
  · rw [hKeys]
    exact hSorted
  · intro d hMem
    obtain ⟨key, -, rfl⟩ := List.mem_map.1 hMem
    exact ⟨rfl, rfl, rfl, ⟨[], rfl, nofun⟩, ⟨[], rfl, nofun⟩⟩
  · rfl
  · exact nofun
  · intro d hMem
    obtain ⟨key, -, rfl⟩ := List.mem_map.1 hMem
    rfl
  · exact nofun
  · exact nofun
  · intro demo hDemo
    cases hDemo
  · exact nofun
  · exact nofun

theorem edits_faithful : ∀ op ∈ edits, ∀ c, op.content = some c → Faithful env c := by
  intro op hMem c hContent
  rcases List.mem_cons.1 hMem with rfl | hMem
  · cases hContent
    exact content_faithful (by decide)
  rcases List.mem_cons.1 hMem with rfl | hMem
  · cases hContent
    exact content_faithful (by decide)
  rcases List.mem_cons.1 hMem with rfl | hMem
  · cases hContent
  · rw [List.mem_singleton.1 hMem] at hContent
    cases hContent
    exact content_faithful (by decide)

theorem edits_told_apart : ToldApart env edits := by
  have hIs : ∀ c, Committed edits c → c.parts env = (content ["camera"]).parts env ∨
      c.parts env = (content ["camera", "stage"]).parts env := by
    rintro c ⟨op, hMem, c', hContent, hWritten⟩
    have hParts : c.parts env = c'.parts env := parts_of_written hWritten.symm
    rw [hParts]
    rcases List.mem_cons.1 hMem with rfl | hMem
    · cases hContent
      exact .inl rfl
    rcases List.mem_cons.1 hMem with rfl | hMem
    · cases hContent
      exact .inr rfl
    rcases List.mem_cons.1 hMem with rfl | hMem
    · cases hContent
    · rw [List.mem_singleton.1 hMem] at hContent
      cases hContent
      exact .inl rfl
  have hApart : (content ["camera"]).hash env ≠ (content ["camera", "stage"]).hash env := by
    decide +kernel
  intro c c' hCommitted hCommitted' hHash
  unfold BlokContent.hash at hHash hApart
  rcases hIs c hCommitted with hParts | hParts <;> rcases hIs c' hCommitted' with hParts' | hParts' <;>
    rw [hParts, hParts'] at hHash ⊢
  · exact absurd hHash hApart
  · exact absurd hHash.symm hApart

/-- The blok of three commits is its head, the revision that went back to the first content. -/
theorem edits_head :
    IsHead env (run env made edits) ∧
      (run env made edits).revisions.map (·.parent) = [none, some 1, some 2] ∧
      (content_of_blok env (run env made edits)).map (·.dependencies.map (·.key)) = some ["camera"] :=
  ⟨(blok_is_its_head made_bare edits_faithful edits_told_apart).1 edits [] rfl, by decide +kernel,
    by decide +kernel⟩

/-- Dependencies that are not in the order of their keys are read back in that order, so that
committing what was read commits a second revision. -/
theorem out_of_order_commits_again :
    (content_of_blok env (run env made [.commit view (content ["stage", "camera"]) none true])).map
        (·.dependencies.map (·.key)) = some ["camera", "stage"] ∧
      ((content_of_blok env (run env made [.commit view (content ["stage", "camera"]) none true])).map
        fun read => (run env made [.commit view (content ["stage", "camera"]) none true,
          .commit view read (some 1) true]).revisions.map (·.number)) = some [1, 2] := by
  decide +kernel

end Cell

end Rekuest.Revisions
