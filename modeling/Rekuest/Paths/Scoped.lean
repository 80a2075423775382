import Mathlib.Data.List.TakeWhile

/-!
# Names below a name

A name is extended by a mark and a segment that does not hold it.  What stands before the first
mark is the name's scope; extending a name keeps its scope, and different segments behind one name
lead to different names, however each goes on.
-/

namespace Paths

variable {α : Type} {mark : α}

/-- A name, or one that goes on behind it. -/
def Under (mark : α) (base name : List α) : Prop := name = base ∨ ∃ rest, name = base ++ mark :: rest

theorem Under.refl (base : List α) : Under mark base base := .inl rfl

theorem Under.segment {base segment name : List α} (h : Under mark (base ++ mark :: segment) name) :
    Under mark base name := by
  rcases h with hIs | ⟨rest, hRest⟩
  · exact .inr ⟨segment, hIs⟩
  · refine .inr ⟨segment ++ mark :: rest, ?_⟩
    rw [hRest, List.append_assoc]
    rfl

/-- A name is not under a segment of itself. -/
theorem Under.proper {base segment : List α} : ¬ Under mark (base ++ mark :: segment) base := by
  intro h
  have hLength : base.length < base.length := by
    rcases h with hIs | ⟨rest, hRest⟩
    · have hBoth := congrArg List.length hIs
      rw [List.length_append, List.length_cons] at hBoth
      omega
    · have hBoth := congrArg List.length hRest
      rw [List.length_append, List.length_append, List.length_cons] at hBoth
      omega
  omega

variable [DecidableEq α]

/-- What stands before the first mark. -/
def scope (mark : α) (name : List α) : List α := name.takeWhile (· ≠ mark)

theorem scope_of_not_mem {name : List α} (h : mark ∉ name) : scope mark name = name := by
  unfold scope
  rw [List.takeWhile_eq_self_iff]
  intro c hc
  have hNe : c ≠ mark := by
    intro hIs
    rw [hIs] at hc
    exact h hc
  exact decide_eq_true hNe

theorem scope_append (base rest : List α) : scope mark (base ++ mark :: rest) = scope mark base := by
  unfold scope
  induction base with
  | nil =>
      rw [List.nil_append, List.takeWhile_cons, List.takeWhile_nil, if_neg]
      rw [decide_eq_true_iff]
      exact fun h => h rfl
  | cons c base ih =>
      rw [List.cons_append, List.takeWhile_cons, List.takeWhile_cons, ih]

theorem Under.scope {base name : List α} (h : Under mark base name) : scope mark name = scope mark base := by
  rcases h with hIs | ⟨rest, hRest⟩
  · rw [hIs]
  · rw [hRest, scope_append]

/-- A name under a segment goes on with that segment. -/
theorem Under.next {base segment name : List α} (hSegment : mark ∉ segment)
    (h : Under mark (base ++ mark :: segment) name) :
    ∃ rest, name = base ++ mark :: rest ∧ Paths.scope mark rest = segment := by
  rcases h with hIs | ⟨rest, hRest⟩
  · exact ⟨segment, hIs, scope_of_not_mem hSegment⟩
  · refine ⟨segment ++ mark :: rest, ?_, ?_⟩
    · rw [hRest, List.append_assoc]
      rfl
    · rw [scope_append, scope_of_not_mem hSegment]

/-- A name is not under two segments of one name. -/
theorem Under.unique {base segment segment' name : List α} (hSegment : mark ∉ segment)
    (hSegment' : mark ∉ segment') (h : Under mark (base ++ mark :: segment) name)
    (h' : Under mark (base ++ mark :: segment') name) : segment = segment' := by
  obtain ⟨rest, hName, hScope⟩ := h.next hSegment
  obtain ⟨rest', hName', hScope'⟩ := h'.next hSegment'
  have hSame : rest = rest' := (List.cons.inj (List.append_cancel_left (hName.symm.trans hName'))).2
  rw [← hScope, ← hScope', hSame]

end Paths
