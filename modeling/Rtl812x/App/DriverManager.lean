import Mathlib.Data.List.Basic

/-!
# The app's driver manager

`DriverManager` of the host app submits system-extension requests (activation, deactivation, and the
query for properties) and is the delegate of all of them.  It does not keep which request it waits for:
when one finishes, `didFinishWithResult` takes `state == .removing` for the sign that it was a
deactivation.  `state` is what the window shows, and other calls write it in the meantime.

A function gives the manager after it and the request it submits, if any.  Which request is
outstanding, and with which stored mode an uninstall began, is kept beside the manager (`AppRun`); no
function of the app reads that.

* `launch`, `appStep` — the app from its launch on: user actions, and the callbacks of the system;
* `OneAtATime` — what the system promises: a second request is not submitted while one is outstanding,
  and the callbacks are those of the outstanding one.
-/

namespace Rtl812x.App

/-! ### The manager -/

inductive DriverState where
  | wrongLocation
  | checking
  | installing
  | removing
  | waitingForApproval
  | enabled
  | rebootRequired
  | failed (message : String)
  | choiceNeeded
  | systemDriver
deriving DecidableEq, Repr

inductive DriverMode where
  | system
  | ours
deriving DecidableEq, Repr

inductive Request where
  | activation
  | deactivation
  | properties
deriving DecidableEq, Repr

/-- `unknown` is a result that a later system may add. -/
inductive RequestResult where
  | completed
  | willCompleteAfterReboot
  | unknown
deriving DecidableEq, Repr

/-- The errors of `OSSystemExtensionErrorDomain` the delegate tells apart. -/
inductive ErrorCode where
  | requestCanceled
  | extensionNotFound
  | other
deriving DecidableEq, Repr

structure RequestError where
  code : ErrorCode
  localizedDescription : String
deriving DecidableEq, Repr

structure ExtensionProperties where
  isEnabled : Bool
  isUninstalling : Bool
deriving DecidableEq, Repr

/-- What the manager keeps.  `mode` is in the user defaults; `recycled` says that the app was told to go
to the Trash, after which it ends. -/
structure Manager where
  state : DriverState
  mode : Option DriverMode
  pendingUninstall : Bool
  openedSettings : Bool
  recycled : Bool
deriving DecidableEq, Repr

def Manager.init (mode : Option DriverMode) : Manager := ⟨.checking, mode, false, false, false⟩

section Functions

variable (hasAppleDriver : Bool)

/-! ### User actions -/

def activate (m : Manager) : Manager × Option Request :=
  ({ m with state := .installing }, some .activation)

def deactivate (m : Manager) : Manager × Option Request :=
  ({ m with state := .removing }, some .deactivation)

def queryProperties (m : Manager) : Manager × Option Request := (m, some .properties)

def chooseSystemDriver (installed : Bool) (m : Manager) : Manager × Option Request :=
  let m := { m with mode := some .system }
  if installed then deactivate m else ({ m with state := .systemDriver }, none)

def chooseOurDriver (m : Manager) : Manager × Option Request := activate { m with mode := some .ours }

/-- The settings are forgotten and the app goes to the Trash. -/
def finishUninstall (m : Manager) : Manager × Option Request :=
  ({ m with mode := none, recycled := true }, none)

def uninstallCompletely (installed : Bool) (m : Manager) : Manager × Option Request :=
  let m := { m with pendingUninstall := true, mode := none }
  if installed then deactivate m else finishUninstall m

def start (isInApplications launchedAtLogin : Bool) (m : Manager) : Manager × Option Request :=
  if !isInApplications then ({ m with state := .wrongLocation }, none)
  else if hasAppleDriver && m.mode = some .ours && launchedAtLogin then
    ({ m with state := .enabled }, none)
  else if hasAppleDriver && m.mode ≠ some .ours then queryProperties { m with state := .checking }
  else activate m

/-! ### The delegate -/

def foundProperties (properties : List ExtensionProperties) (m : Manager) : Manager × Option Request :=
  let installed := properties.any fun p => p.isEnabled && !p.isUninstalling
  if !hasAppleDriver then activate m
  else if installed then
    if m.mode = some .system then deactivate m else ({ m with state := .choiceNeeded }, none)
  else ({ m with state := .systemDriver }, none)

def requestNeedsUserApproval (m : Manager) : Manager × Option Request :=
  ({ m with state := .waitingForApproval, openedSettings := true }, none)

def didFinishWithResult (result : RequestResult) (m : Manager) : Manager × Option Request :=
  if m.pendingUninstall then finishUninstall m
  else
    let removed := m.state = .removing
    match result with
    | .completed =>
        let m := { m with
          state := if removed then (if hasAppleDriver then .systemDriver else .checking) else .enabled }
        if removed ∧ !hasAppleDriver then queryProperties m else (m, none)
    | .willCompleteAfterReboot => ({ m with state := .rebootRequired }, none)
    | .unknown => ({ m with state := if removed then .systemDriver else .enabled }, none)

def didFailWithError (error : RequestError) (m : Manager) : Manager × Option Request :=
  let m := { m with pendingUninstall := false }
  if error.code = .requestCanceled then ({ m with state := .enabled }, none)
  else if error.code = .extensionNotFound ∧ hasAppleDriver then ({ m with state := .systemDriver }, none)
  else ({ m with state := .failed error.localizedDescription }, none)

/-! ### Runs -/

inductive AppOp where
  | chooseSystemDriver (installed : Bool)
  | chooseOurDriver
  | uninstallCompletely (installed : Bool)
  | activate
  | deactivate
  | foundProperties (properties : List ExtensionProperties)
  | needsUserApproval
  | didFinish (result : RequestResult)
  | didFail (error : RequestError)
deriving DecidableEq, Repr

/-- The function an operation calls. -/
def AppOp.call : AppOp → Manager → Manager × Option Request
  | .chooseSystemDriver installed => App.chooseSystemDriver installed
  | .chooseOurDriver => App.chooseOurDriver
  | .uninstallCompletely installed => App.uninstallCompletely installed
  | .activate => App.activate
  | .deactivate => App.deactivate
  | .foundProperties properties => App.foundProperties hasAppleDriver properties
  | .needsUserApproval => requestNeedsUserApproval
  | .didFinish result => didFinishWithResult hasAppleDriver result
  | .didFail error => didFailWithError hasAppleDriver error

/-- The operation is the last callback of a request. -/
def AppOp.ends : AppOp → Bool
  | .foundProperties _ | .didFinish _ | .didFail _ => true
  | _ => false

/-- An uninstall in progress: the mode stored before it, and whether the user has chosen the system's
driver since. -/
structure Uninstall where
  before : Option DriverMode
  systemChosen : Bool
deriving DecidableEq, Repr

/-- What is recorded of the uninstall whose deactivation is outstanding. -/
def noteUninstall (m : Manager) (u : Option Uninstall) : AppOp → Option Uninstall
  | .uninstallCompletely true => some ⟨m.mode, false⟩
  | .uninstallCompletely false => u.map fun u => { u with systemChosen := false }
  | .chooseSystemDriver false => u.map fun u => { u with systemChosen := true }
  | .needsUserApproval => u
  | _ => none

/-- The manager, the request that is outstanding, and the uninstall it belongs to. -/
structure AppRun where
  manager : Manager
  request : Option Request
  uninstall : Option Uninstall
deriving DecidableEq, Repr

def launch (mode : Option DriverMode) (isInApplications launchedAtLogin : Bool) : AppRun :=
  let r := start hasAppleDriver isInApplications launchedAtLogin (Manager.init mode)
  ⟨r.1, r.2, none⟩

def appStep (s : AppRun) (op : AppOp) : AppRun :=
  let r := op.call hasAppleDriver s.manager
  { manager := r.1
    request := if op.ends then r.2 else r.2.or s.request
    uninstall := noteUninstall s.manager s.uninstall op }

/-- One request is outstanding at a time, and the callbacks are those the system delivers for it. -/
def OneAtATime (s : AppRun) : AppOp → Prop
  | .foundProperties _ => s.request = some .properties
  | .needsUserApproval => s.request = some .activation ∨ s.request = some .deactivation
  | .didFinish result =>
      (s.request = some .activation ∨ s.request = some .deactivation) ∧ result ≠ .unknown
  | .didFail _ => s.request ≠ none
  | op => (op.call hasAppleDriver s.manager).2 = none ∨ s.request = none

instance (s : AppRun) : (op : AppOp) → Decidable (OneAtATime hasAppleDriver s op)
  | .foundProperties _ => inferInstanceAs (Decidable (_ = _))
  | .needsUserApproval => inferInstanceAs (Decidable (_ ∨ _))
  | .didFinish _ => inferInstanceAs (Decidable (_ ∧ _))
  | .didFail _ => inferInstanceAs (Decidable (_ ≠ _))
  | .chooseSystemDriver _ | .chooseOurDriver | .uninstallCompletely _ | .activate | .deactivate =>
      inferInstanceAs (Decidable (_ ∨ _))

end Functions

end Rtl812x.App
