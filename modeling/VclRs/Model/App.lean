import VclRs.Model.Session

namespace VclRs

open Interaction

structure VclApp where
deriving DecidableEq, Repr

section Lifecycle

variable [Platform]

def VclApp.init (appName : List UInt8) : Vcl VclApp := do
  let initialized ← ffi (.initializedSwap true)
  rejectIf (initialized = true) (.api "VCL already initialized" (-1))
  rejectIf (0 ∈ appName) (.api "invalid app name" (-1))
  let rc ← vppcomAppCreate appName
  if rc < 0 then do
    ffi (.initializedStore false)
    err (fromRc rc)
  else pure {}

end Lifecycle

def VclApp.drop : Vcl Unit := do
  vppcomAppDestroy
  ffi (.initializedStore false)

def settleRegistration (idx : Int) : Vcl Unit :=
  if idx < 0 then vppcomWorkerUnregister else ffi .registeredSet

def registerWorkerThread : Vcl Unit := do
  let registered ← ffi .registeredGet
  if registered then pure ()
  else do
    ffi .registerLock
    let _ ← vppcomWorkerRegister
    let idx ← vppcomWorkerIndex
    settleRegistration idx
    ffi .registerUnlock

def join {α : Type} (r : Except Stop α) : Vcl α := do
  match ← ffi .joinBlocking, r with
  | .dropped, _ => Fallible.fail .dropped
  | .finished, .ok a => pure a
  | .finished, .error e => Fallible.fail e

def spawnBlocking {α : Type} (closure : Vcl α) : Vcl α := do
  match ← ffi .spawnBlocking with
  | .error e => err (.api s!"spawn_blocking join: {e}" (-1))
  | .ok _ => closure.handle join

def prewarmTask : Vcl Unit := do
  registerWorkerThread
  ffi .barrierWait

def spawnTasks (handles : List ℕ) : ℕ → Vcl (List ℕ)
  | 0 => pure handles
  | n + 1 => do
    let h ← ffi .taskSpawn
    spawnTasks (handles ++ [h]) n

def joinTasks : List ℕ → Vcl Unit
  | [] => pure ()
  | h :: handles => do
    match ← ffi (.taskJoin h) with
    | .ok _ => joinTasks handles
    | .error e => err (.api s!"prewarm join: {e}" (-1))

def prewarm (n : ℕ) : Vcl Unit :=
  if n = 0 then pure ()
  else do
    let handles ← spawnTasks [] n
    joinTasks handles

end VclRs
