import Rekuest.Backend.Lasting

/-!
# An assign is a run

`assign_with_status` alone at work takes the steps of the server: it asks,
inserts, and does the same for each of its hooks.
-/

namespace Rekuest.Backend

open Concurrent

variable {env : Env} {s : Server}

/-- An assign writes no user and no organization. -/
theorem assignMain_identities (env : Env) (principal : CallerContext) (input : AssignInput)
    (w : World) :
    (assignMain env id principal input w).world.db.users = w.db.users ∧
      (assignMain env id principal input w).world.db.organizations = w.db.organizations := by
  have hCalled : ∀ {organization caller : Int} {db : Database},
      getCaller w.db principal organization = (caller, db) →
        db.users = w.db.users ∧ db.organizations = w.db.organizations := by
    intro organization caller db hCaller
    have hLater := later_of_getCaller hCaller
    exact ⟨hLater.users, hLater.organizations⟩
  have hAdded : ∀ {w world : World} {rows : List TaskRow}, Adds w rows world →
      world.db.users = w.db.users ∧ world.db.organizations = w.db.organizations := by
    intro w world rows hAdds
    rw [hAdds.rest]
    exact ⟨rfl, rfl⟩
  have hWent := assignMain_went env id principal input w
  generalize assignMain env id principal input w = outcome at hWent
  cases hWent with
  | refused e hCaller =>
      rcases hCaller with rfl | ⟨organization, rfl⟩
      · exact ⟨rfl, rfl⟩
      · exact hCalled rfl
  | found hCaller _ => exact hCalled hCaller
  | @plain _ caller db _ new action implementation goesOut answer world hCaller _ _ hAssign =>
      obtain ⟨hUsers, hOrganizations⟩ := hCalled hCaller
      cases hCommits : commits env (w.atInsert id db).db principal
          (.plain new action implementation goesOut) with
      | true =>
          obtain ⟨world', hAnswer, hAdds⟩ := assignPlain_commits input caller _ hCommits
          rw [hAssign] at hAnswer
          cases hAnswer
          exact ⟨(hAdded hAdds).1.trans hUsers, (hAdded hAdds).2.trans hOrganizations⟩
      | false =>
          obtain ⟨answer', hAnswer, -⟩ := assignPlain_fails input caller _ hCommits
          rw [hAssign] at hAnswer
          cases hAnswer
          exact ⟨hUsers, hOrganizations⟩
  | @wrapper _ caller db _ new child lower lowerAction held answer world hCaller _ _ hAssign =>
      obtain ⟨hUsers, hOrganizations⟩ := hCalled hCaller
      cases hCommits : commits env (w.atInsert id db).db principal
          (.wrapper new child lower lowerAction held) with
      | true =>
          obtain ⟨world', hAnswer, hAdds⟩ := assignHigherOrder_commits input caller _ hCommits
          rw [hAssign] at hAnswer
          cases hAnswer
          exact ⟨(hAdded hAdds).1.trans hUsers, (hAdded hAdds).2.trans hOrganizations⟩
      | false =>
          obtain ⟨answer', hAnswer, -⟩ := assignHigherOrder_fails input caller _ hCommits
          rw [hAssign] at hAnswer
          cases hAnswer
          exact ⟨hUsers, hOrganizations⟩

/-- An assign up to its hooks is its two steps, one after the other. -/
theorem assignMain_run (env : Env) {principal : CallerContext} {user client organization : Int}
    (hLoad : CallerContext.load s.world.db user client (some organization) = some principal)
    (input : AssignInput) :
    (server env).Run System.anyStep s
      { s with world := (assignMain env id principal input s.world).world } := by
  have hAsk : ∀ {world : World} {left : Option Pending},
      ask env principal input s.world = some (world, left) →
      (server env).Run System.anyStep s
        { s with world := world, pending := s.pending ++ left.toList } := by
    intro world left h
    have hNext : (server env).next s (.ask user client organization input) =
        some { s with world := world, pending := s.pending ++ left.toList } := by
      simp [server, next, hLoad, h]
    exact .step .refl trivial hNext
  unfold assignMain
  unfold ask at hAsk
  cases hOrganization : principal.organization with
  | none => exact .refl
  | some organization =>
  rw [hOrganization] at hAsk
  dsimp only
  cases hResolution : resolutionOf s.world.db input with
  | error e => exact .refl
  | ok resolution =>
  rw [hResolution] at hAsk
  rcases hCaller : getCaller s.world.db principal organization with ⟨caller, db⟩
  simp only [Except.toOption, Option.bind_eq_bind, Option.bind_some, hCaller] at hAsk
  dsimp only
  cases hFound : existingAssign db caller input input.givenReference with
  | error e =>
      rw [hFound] at hAsk
      simpa using hAsk rfl
  | ok found =>
  cases found with
  | some existing =>
      rw [hFound] at hAsk
      simpa using hAsk rfl
  | none =>
  rw [hFound] at hAsk
  dsimp only at hAsk ⊢
  cases hPrepared : prepare env db principal input organization caller resolution
      s.world.uuids with
  | error e =>
      rw [hPrepared] at hAsk
      simpa using hAsk rfl
  | ok prepared =>
      rw [hPrepared] at hAsk
      have hNext : (server env).next { s with
            world := { s.world with db := db, uuids := s.world.uuids + 2 }
            pending := s.pending ++ [.insert principal input caller prepared] }
          (.proceed s.pending.length) =
          some { s with world := (insertPrepared env principal input caller prepared
            { s.world with db := db, uuids := s.world.uuids + 2 }) } := by
        have hErase : (s.pending ++ [Pending.insert principal input caller prepared]).eraseIdx
            s.pending.length = s.pending := by
          rw [List.eraseIdx_append_of_length_le (Nat.le_refl _)]
          simp
        simp [server, next, hErase]
      have hInsert := (hAsk rfl).step trivial hNext
      cases prepared with
      | plain new action implementation goesOut => exact hInsert
      | wrapper new child lower lowerAction held => exact hInsert

/-- **An assign with its hooks is a run of the server.** -/
theorem assignWithStatus_run {principal : CallerContext} {user client organization : Int}
    (hLoad : CallerContext.load s.world.db user client (some organization) = some principal)
    (input : AssignInput) :
    (server env).Run System.anyStep s
      { s with world := (assignWithStatus env id principal input s.world).2 } := by
  have hLoaded : ∀ {s : Server}, CallerContext.load s.world.db user client (some organization) =
      some principal → ∀ input, CallerContext.load
        (assignMain env id principal input s.world).world.db user client (some organization) =
          some principal := by
    intro s hLoad input
    obtain ⟨hUsers, hOrganizations⟩ := assignMain_identities env principal input s.world
    unfold CallerContext.load at hLoad ⊢
    rw [hUsers, hOrganizations]
    exact hLoad
  have hHooks : ∀ (hooks : List HookInput) (task : Int) (s : Server),
      CallerContext.load s.world.db user client (some organization) = some principal →
      (server env).Run System.anyStep s
        { s with world := (runHooks env id principal task hooks s.world).2 } := by
    intro hooks task
    induction hooks with
    | nil => exact fun s _ => .refl
    | cons hook rest ih =>
        intro s hLoad
        have hFirst := assignMain_run env hLoad (hookInput task hook)
        unfold runHooks
        dsimp only
        split
        · exact hFirst
        · exact hFirst.trans (ih _ (hLoaded hLoad _))
  have hMain := assignMain_run env hLoad input
  unfold assignWithStatus
  dsimp only
  split
  · exact hMain
  · next assigned _ =>
      split
      · have hRun := hMain.trans (hHooks input.initHooks assigned.task _ (hLoaded hLoad input))
        split
        · next hAll =>
            rw [hAll] at hRun
            exact hRun
        · next hAll =>
            rw [hAll] at hRun
            exact hRun
      · exact hMain

end Rekuest.Backend
