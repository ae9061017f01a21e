import Rtl812x.App.DriverManager
import Rtl812x.Lib.Runs

/-!
# Does the app's state follow its requests?

When a request ends, the manager should show what came of it, and an uninstall that fails should leave
the stored mode.  It goes by the state it shows and by `pendingUninstall`, so this module follows both
while a request is outstanding.

* `didFinish_completed`, `didFail_spec` — what the callbacks leave;
* `AppInv.step` — **what the manager shows and stores while a request is outstanding**;
* `outcome_followed_iff` — **the state follows the outcome of the requests**, apart from the four cases of
  `Misled`;
* `outcome_not_followed` — one run for each of them.
-/

namespace Rtl812x.App

open Runs

/-! ### What should come of a request -/

section Statement

variable (hasAppleDriver : Bool)

/-- What the outcome of a request should leave: the driver is not shown as enabled after a deactivation
or a failed activation and is after a completed activation, and an uninstall that fails leaves the mode
stored before it. -/
def OutcomeFollowed (s : AppRun) (op : AppOp) : Prop :=
  let m := (appStep hasAppleDriver s op).manager
  match op with
  | .didFinish result =>
      (s.request = some .deactivation → m.state ≠ .enabled) ∧
      (s.request = some .activation → result = .completed → m.state = .enabled)
  | .didFail _ =>
      (s.request = some .activation → m.state ≠ .enabled) ∧
      (s.request = some .deactivation → ∀ u ∈ s.uninstall, m.mode = u.before)
  | _ => True

/-- Where the state does not follow: a deactivation completes while the window shows something else, an
activation completes during an uninstall, an activation is cancelled, or the deactivation of an uninstall
fails and the mode stored before it was another. -/
def Misled (s : AppRun) : AppOp → Prop
  | .didFinish result => result = .completed ∧
      (s.request = some .deactivation ∧ s.manager.pendingUninstall = false ∧
          s.manager.state ≠ .removing ∨
        s.request = some .activation ∧ s.manager.pendingUninstall = true)
  | .didFail error =>
      s.request = some .activation ∧ error.code = .requestCanceled ∨
      s.request = some .deactivation ∧ ∃ u ∈ s.uninstall,
        u.before ≠ if u.systemChosen then some .system else none
  | _ => False

instance (s : AppRun) : (op : AppOp) → Decidable (OutcomeFollowed hasAppleDriver s op)
  | .didFinish _ => inferInstanceAs (Decidable (_ ∧ _))
  | .didFail _ => inferInstanceAs (Decidable (_ ∧ _))
  | .foundProperties _ | .needsUserApproval | .chooseSystemDriver _ | .chooseOurDriver
  | .uninstallCompletely _ | .activate | .deactivate => inferInstanceAs (Decidable True)

instance (s : AppRun) : (op : AppOp) → Decidable (Misled s op)
  | .didFinish _ => inferInstanceAs (Decidable (_ ∧ _))
  | .didFail _ => inferInstanceAs (Decidable (_ ∨ _))
  | .foundProperties _ | .needsUserApproval | .chooseSystemDriver _ | .chooseOurDriver
  | .uninstallCompletely _ | .activate | .deactivate => inferInstanceAs (Decidable False)

end Statement

/-! ### What the callbacks do -/

variable {hasAppleDriver : Bool} {s : AppRun}

theorem didFinish_pending {m : Manager} (h : m.pendingUninstall = true) (result : RequestResult) :
    didFinishWithResult hasAppleDriver result m = finishUninstall m := if_pos h

/-- Without an uninstall, a completed request is taken for a deactivation if the window shows one. -/
theorem didFinish_completed {m : Manager} (h : m.pendingUninstall = false) :
    (didFinishWithResult hasAppleDriver .completed m).1.state =
      if m.state = .removing then (if hasAppleDriver then .systemDriver else .checking)
      else .enabled := by
  rw [didFinishWithResult, if_neg (by simp [h])]
  dsimp only
  split <;> rfl

theorem didFinish_reboot {m : Manager} (h : m.pendingUninstall = false) :
    didFinishWithResult hasAppleDriver .willCompleteAfterReboot m =
      ({ m with state := .rebootRequired }, none) := by
  rw [didFinishWithResult, if_neg (by simp [h])]

/-- A finished request is followed by the query for properties at most. -/
theorem didFinish_request (hasAppleDriver : Bool) (result : RequestResult) (m : Manager) :
    (didFinishWithResult hasAppleDriver result m).2 = none ∨
      (didFinishWithResult hasAppleDriver result m).2 = some .properties := by
  unfold didFinishWithResult
  split
  · exact Or.inl rfl
  · cases result with
    | completed =>
        dsimp only
        split
        · exact Or.inr rfl
        · exact Or.inl rfl
    | willCompleteAfterReboot => exact Or.inl rfl
    | unknown => exact Or.inl rfl

/-- A failed request submits nothing, leaves the stored mode alone, and shows the driver as enabled if
the user cancelled it. -/
theorem didFail_spec (hasAppleDriver : Bool) (error : RequestError) (m : Manager) :
    (didFailWithError hasAppleDriver error m).2 = none ∧
    (didFailWithError hasAppleDriver error m).1.mode = m.mode ∧
    ((didFailWithError hasAppleDriver error m).1.state = .enabled ↔ error.code = .requestCanceled) := by
  unfold didFailWithError
  dsimp only
  by_cases hcancel : error.code = .requestCanceled
  · rw [if_pos hcancel]
    exact ⟨rfl, rfl, iff_of_true rfl hcancel⟩
  · rw [if_neg hcancel]
    split
    · exact ⟨rfl, rfl, iff_of_false (by simp) hcancel⟩
    · exact ⟨rfl, rfl, iff_of_false (by simp) hcancel⟩

/-! ### The invariant -/

/-- What the manager shows and stores while a request is outstanding. -/
structure AppInv (s : AppRun) : Prop where
  activating : s.request = some .activation →
    s.manager.state ≠ .enabled ∧ s.manager.state ≠ .removing
  deactivating : s.request = some .deactivation → s.manager.state ≠ .enabled
  uninstalling : ∀ u, s.uninstall = some u → s.request = some .deactivation ∧
    s.manager.mode = if u.systemChosen then some .system else none

/-- After a call that submits `r`, or nothing. -/
theorem AppInv.of_submitted {m : Manager} {r : Option Request}
    (hactivation : r = some .activation → m.state = .installing)
    (hdeactivation : r = some .deactivation → m.state = .removing) : AppInv ⟨m, r, none⟩ where
  activating := fun h => by
    rw [hactivation h]
    decide
  deactivating := fun h => by
    rw [hdeactivation h]
    decide
  uninstalling := fun u hu => by cases hu

theorem AppInv.launch (hasAppleDriver : Bool) (mode : Option DriverMode)
    (isInApplications launchedAtLogin : Bool) :
    AppInv (launch hasAppleDriver mode isInApplications launchedAtLogin) := by
  unfold App.launch start
  split
  · exact AppInv.of_submitted (by simp) (by simp)
  · split
    · exact AppInv.of_submitted (by simp) (by simp)
    · split
      · exact AppInv.of_submitted (by simp [queryProperties]) (by simp [queryProperties])
      · exact AppInv.of_submitted (fun _ => rfl) (by simp [activate])

/-- An action that submits nothing while a request is outstanding. -/
theorem AppInv.of_shown (h : AppInv s) {m : Manager} {u : Option Uninstall}
    (hstate : m.state = s.manager.state ∨ m.state = .waitingForApproval ∨ m.state = .systemDriver)
    (hu : ∀ v, u = some v → (∃ w, s.uninstall = some w) ∧
      m.mode = if v.systemChosen then some .system else none) :
    AppInv ⟨m, s.request, u⟩ := by
  refine ⟨fun hr => ?_, fun hr => ?_, fun v hv => ?_⟩
  · rcases hstate with hs | hs | hs
    · rw [hs]
      exact h.activating hr
    · rw [hs]
      decide
    · rw [hs]
      decide
  · rcases hstate with hs | hs | hs
    · rw [hs]
      exact h.deactivating hr
    · rw [hs]
      decide
    · rw [hs]
      decide
  · obtain ⟨⟨w, hw⟩, hmode⟩ := hu v hv
    exact ⟨(h.uninstalling w hw).1, hmode⟩

/-- **Every operation keeps the invariant.** -/
theorem AppInv.step (h : AppInv s) (op : AppOp) : AppInv (appStep hasAppleDriver s op) := by
  cases op with
  | activate => exact AppInv.of_submitted (fun _ => rfl) (fun hr => by cases hr)
  | deactivate => exact AppInv.of_submitted (fun hr => by cases hr) (fun _ => rfl)
  | chooseOurDriver => exact AppInv.of_submitted (fun _ => rfl) (fun hr => by cases hr)
  | chooseSystemDriver installed =>
      cases installed with
      | true => exact AppInv.of_submitted (fun hr => by cases hr) (fun _ => rfl)
      | false =>
          refine h.of_shown (Or.inr (Or.inr rfl)) fun v hv => ?_
          obtain ⟨w, hw, rfl⟩ := Option.map_eq_some_iff.mp hv
          exact ⟨⟨w, hw⟩, rfl⟩
  | uninstallCompletely installed =>
      cases installed with
      | true =>
          refine ⟨fun hr => (by cases hr), fun _ => ?_, fun u hu => ⟨rfl, ?_⟩⟩
          · show DriverState.removing ≠ .enabled
            decide
          · rw [← Option.some.inj hu]
            rfl
      | false =>
          refine h.of_shown (Or.inl rfl) fun v hv => ?_
          obtain ⟨w, hw, rfl⟩ := Option.map_eq_some_iff.mp hv
          exact ⟨⟨w, hw⟩, rfl⟩
  | needsUserApproval =>
      exact h.of_shown (Or.inr (Or.inl rfl)) fun v hv => ⟨⟨v, hv⟩, (h.uninstalling v hv).2⟩
  | foundProperties properties =>
      show AppInv ⟨(foundProperties hasAppleDriver properties s.manager).1,
        (foundProperties hasAppleDriver properties s.manager).2, none⟩
      unfold foundProperties
      dsimp only
      split
      · exact AppInv.of_submitted (fun _ => rfl) (by simp [activate])
      · split
        · split
          · exact AppInv.of_submitted (by simp [deactivate]) (fun _ => rfl)
          · exact AppInv.of_submitted (by simp) (by simp)
        · exact AppInv.of_submitted (by simp) (by simp)
  | didFinish result =>
      show AppInv ⟨(didFinishWithResult hasAppleDriver result s.manager).1,
        (didFinishWithResult hasAppleDriver result s.manager).2, none⟩
      rcases didFinish_request hasAppleDriver result s.manager with hr | hr
      · rw [hr]
        exact AppInv.of_submitted (by simp) (by simp)
      · rw [hr]
        exact AppInv.of_submitted (by simp) (by simp)
  | didFail error =>
      show AppInv ⟨(didFailWithError hasAppleDriver error s.manager).1,
        (didFailWithError hasAppleDriver error s.manager).2, none⟩
      rw [(didFail_spec hasAppleDriver error s.manager).1]
      exact AppInv.of_submitted (by simp) (by simp)

/-! ### The outcomes -/

section Outcome

variable (h : AppInv s)
include h

/-- A deactivation finishes. -/
theorem AppInv.deactivation_finished {result : RequestResult} (hr : s.request = some .deactivation)
    (hknown : result ≠ .unknown) :
    (didFinishWithResult hasAppleDriver result s.manager).1.state ≠ .enabled ↔
      ¬ (result = .completed ∧ s.manager.pendingUninstall = false ∧ s.manager.state ≠ .removing) := by
  cases hpending : s.manager.pendingUninstall with
  | true =>
      rw [didFinish_pending hpending]
      exact iff_of_true (h.deactivating hr) (by simp)
  | false =>
      cases result with
      | unknown => exact absurd rfl hknown
      | willCompleteAfterReboot =>
          rw [didFinish_reboot hpending]
          exact iff_of_true (by simp) (by simp)
      | completed =>
          rw [didFinish_completed hpending]
          by_cases hstate : s.manager.state = .removing
          · refine iff_of_true ?_ (by simp [hstate])
            rw [if_pos hstate]
            cases hasAppleDriver <;> decide
          · exact iff_of_false (by simp [hstate]) (by simp [hstate])

/-- An activation completes. -/
theorem AppInv.activation_completed (hr : s.request = some .activation) :
    (didFinishWithResult hasAppleDriver .completed s.manager).1.state = .enabled ↔
      s.manager.pendingUninstall ≠ true := by
  obtain ⟨henabled, hremoving⟩ := h.activating hr
  cases hpending : s.manager.pendingUninstall with
  | true =>
      rw [didFinish_pending hpending]
      exact iff_of_false henabled (by simp)
  | false =>
      rw [didFinish_completed hpending, if_neg hremoving]
      exact iff_of_true rfl (by simp)

/-- A request finishes. -/
theorem AppInv.finished_iff {result : RequestResult}
    (hlegal : OneAtATime hasAppleDriver s (.didFinish result)) :
    OutcomeFollowed hasAppleDriver s (.didFinish result) ↔ ¬ Misled s (.didFinish result) := by
  obtain ⟨hr | hr, hknown⟩ := hlegal
  · simp only [OutcomeFollowed, Misled, hr, Option.some.injEq, reduceCtorEq, false_and, true_and,
      false_or, IsEmpty.forall_iff, forall_const]
    rw [not_and]
    refine forall_congr' fun hcompleted => ?_
    rw [hcompleted]
    exact h.activation_completed hr
  · simp only [OutcomeFollowed, Misled, hr, Option.some.injEq, reduceCtorEq, false_and, true_and,
      or_false, IsEmpty.forall_iff, forall_const, and_true]
    exact h.deactivation_finished hr hknown

/-- A request fails. -/
theorem AppInv.failed_iff (error : RequestError) :
    OutcomeFollowed hasAppleDriver s (.didFail error) ↔ ¬ Misled s (.didFail error) := by
  obtain ⟨-, hmode, hstate⟩ := didFail_spec hasAppleDriver error s.manager
  rw [Misled, not_or, not_and, not_and]
  refine and_congr (forall_congr' fun _ => not_congr hstate) (forall_congr' fun _ => ?_)
  push Not
  refine forall_congr' fun u => forall_congr' fun hu => ?_
  show (didFailWithError hasAppleDriver error s.manager).1.mode = u.before ↔ _
  rw [hmode, (h.uninstalling u hu).2]
  exact eq_comm

/-- **One operation**: its outcome is followed unless the manager is misled. -/
theorem AppInv.followed_iff (op : AppOp) (hlegal : OneAtATime hasAppleDriver s op) :
    OutcomeFollowed hasAppleDriver s op ↔ ¬ Misled s op := by
  cases op with
  | didFinish result => exact h.finished_iff hlegal
  | didFail error => exact h.failed_iff error
  | _ => exact iff_of_true trivial id

end Outcome

/-- **The app's state follows the outcome of its requests** in the runs in which the manager is never
misled, and in no others. -/
theorem outcome_followed_iff (hasAppleDriver : Bool) (mode : Option DriverMode)
    (isInApplications launchedAtLogin : Bool) (ops : List AppOp)
    (hlegal : Along (appStep hasAppleDriver) (OneAtATime hasAppleDriver)
      (launch hasAppleDriver mode isInApplications launchedAtLogin) ops) :
    Along (appStep hasAppleDriver) (OutcomeFollowed hasAppleDriver)
        (launch hasAppleDriver mode isInApplications launchedAtLogin) ops ↔
      Along (appStep hasAppleDriver) (fun s op => ¬ Misled s op)
        (launch hasAppleDriver mode isInApplications launchedAtLogin) ops :=
  along_congr_of (fun _ op hs hl => hs.followed_iff op hl) (fun _ op hs _ _ => hs.step op)
    (AppInv.launch hasAppleDriver mode isInApplications launchedAtLogin) hlegal

/-- The driver is installed after an approval, removed, and installed again as soon as the query answers;
the last activation fails. -/
def installRemoveInstall : List AppOp :=
  [.needsUserApproval, .didFinish .completed, .deactivate, .didFinish .completed, .foundProperties [],
    .didFail ⟨.other, "no space left"⟩]

theorem outcome_followed_installRemoveInstall :
    Along (appStep false) (OutcomeFollowed false) (launch false none true false) installRemoveInstall ∧
      (exec (appStep false) (launch false none true false) installRemoveInstall).manager.state =
        .failed "no space left" :=
  ⟨(outcome_followed_iff false none true false installRemoveInstall (by decide)).mpr (by decide), by decide⟩

/-- A run the system may deliver, at some point of which the state does not follow. -/
def NotFollowed (hasAppleDriver : Bool) (s : AppRun) (ops : List AppOp) : Prop :=
  Along (appStep hasAppleDriver) (OneAtATime hasAppleDriver) s ops ∧
    ¬ Along (appStep hasAppleDriver) (OutcomeFollowed hasAppleDriver) s ops

instance (hasAppleDriver : Bool) (s : AppRun) (ops : List AppOp) :
    Decidable (NotFollowed hasAppleDriver s ops) := inferInstanceAs (Decidable (_ ∧ _))

/-- **The state does not follow**: a deactivation that needs an approval is shown as enabled, and so is a
cancelled activation; an activation that completes during an uninstall is not; a cancelled uninstall has
forgotten the mode. -/
theorem outcome_not_followed :
    NotFollowed false (launch false none true false)
      [.didFinish .completed, .deactivate, .needsUserApproval, .didFinish .completed] ∧
    NotFollowed false (launch false none true false) [.didFail ⟨.requestCanceled, "canceled"⟩] ∧
    NotFollowed false (launch false none true false)
      [.uninstallCompletely false, .didFinish .completed] ∧
    NotFollowed true (launch true (some .ours) true true)
      [.uninstallCompletely true, .didFail ⟨.requestCanceled, "canceled"⟩] := by
  decide

end Rtl812x.App
