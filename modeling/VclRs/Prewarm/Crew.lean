import VclRs.Model.App
import Mathlib.Logic.Relation

namespace VclRs

open Interaction

abbrev Duty := Prog Call Reply (Except Stop Unit)

inductive Station where
  | idle
  | busy (task : ℕ) (arrived : Bool) (rest : Duty)

structure PoolThread where
  registered : Bool
  called : Bool
  station : Station

structure Crew where
  caller : Duty
  spawned : ℕ
  queue : List ℕ
  threads : List PoolThread
  locked : Bool
  arrivals : ℕ
  finished : List ℕ

inductive Acts (n : ℕ) : PoolThread → Bool → ℕ → PoolThread → Bool → ℕ → Prop
  | get {reg called arrived locked : Bool} {task arrivals : ℕ} {k : Bool → Duty} :
    Acts n ⟨reg,called,.busy task arrived (.call .registeredGet k)⟩ locked arrivals
      ⟨reg,true,.busy task arrived (k reg)⟩ locked arrivals
  | lock {reg called arrived : Bool} {task arrivals : ℕ} {k : Unit → Duty} :
    Acts n ⟨reg,called,.busy task arrived (.call .registerLock k)⟩ false arrivals
      ⟨reg,called,.busy task arrived (k ())⟩ true arrivals
  | register {reg called arrived locked : Bool} {task arrivals : ℕ} {k : Int → Duty} (rc : Int)
      (h : ¬rc < 0) :
    Acts n ⟨reg,called,.busy task arrived (.call .workerRegister k)⟩ locked arrivals
      ⟨reg,called,.busy task arrived (k rc)⟩ locked arrivals
  | index {reg called arrived locked : Bool} {task arrivals : ℕ} {k : Int → Duty} (idx : Int)
      (h : ¬idx < 0) :
    Acts n ⟨reg,called,.busy task arrived (.call .workerIndex k)⟩ locked arrivals
      ⟨reg,called,.busy task arrived (k idx)⟩ locked arrivals
  | unregister {reg called arrived locked : Bool} {task arrivals : ℕ} {k : Unit → Duty} :
    Acts n ⟨reg,called,.busy task arrived (.call .workerUnregister k)⟩ locked arrivals
      ⟨reg,called,.busy task arrived (k ())⟩ locked arrivals
  | set {reg called arrived locked : Bool} {task arrivals : ℕ} {k : Unit → Duty} :
    Acts n ⟨reg,called,.busy task arrived (.call .registeredSet k)⟩ locked arrivals
      ⟨true,called,.busy task arrived (k ())⟩ locked arrivals
  | unlock {reg called arrived locked : Bool} {task arrivals : ℕ} {k : Unit → Duty} :
    Acts n ⟨reg,called,.busy task arrived (.call .registerUnlock k)⟩ locked arrivals
      ⟨reg,called,.busy task arrived (k ())⟩ false arrivals
  | arrive {reg called locked : Bool} {task arrivals : ℕ} {k : Unit → Duty} :
    Acts n ⟨reg,called,.busy task false (.call .barrierWait k)⟩ locked arrivals
      ⟨reg,called,.busy task true (.call .barrierWait k)⟩ locked (arrivals + 1)
  | leave {reg called locked : Bool} {task arrivals : ℕ} {k : Unit → Duty} (h : n ≤ arrivals) :
    Acts n ⟨reg,called,.busy task true (.call .barrierWait k)⟩ locked arrivals
      ⟨reg,called,.busy task true (k ())⟩ locked arrivals

namespace Crew

def start (n : ℕ) (flags : List Bool) : Crew where
  caller := (prewarm n).prog
  spawned := 0
  queue := []
  threads := flags.map (fun registered => ⟨registered,false,.idle⟩)
  locked := false
  arrivals := 0
  finished := []

inductive Step (n limit : ℕ) (C : Crew) : Crew → Prop
  | spawn {k : ℕ → Duty} (h : C.caller = .call .taskSpawn k) :
    Step n limit C { C with
      caller := k C.spawned
      spawned := C.spawned + 1
      queue := C.queue ++ [C.spawned] }
  | join {task : ℕ} {k : Except String Unit → Duty} (h : C.caller = .call (.taskJoin task) k)
      (hf : task ∈ C.finished) : Step n limit C { C with caller := k (.ok ()) }
  | thread (hq : C.queue ≠ []) (hl : C.threads.length < limit)
      (hi : ∀ w ∈ C.threads, w.station ≠ .idle) :
    Step n limit C { C with threads := C.threads ++ [⟨false,false,.idle⟩] }
  | pick {pre post : List PoolThread} {reg called : Bool} {task : ℕ}
      (ht : C.threads = pre ++ ⟨reg,called,.idle⟩ :: post) (hq : task ∈ C.queue) :
    Step n limit C { C with
      threads := pre ++ ⟨reg,called,.busy task false prewarmTask.prog⟩ :: post
      queue := C.queue.erase task }
  | act {pre post : List PoolThread} {w w' : PoolThread} {locked : Bool} {arrivals : ℕ}
      (ht : C.threads = pre ++ w :: post) (ha : Acts n w C.locked C.arrivals w' locked arrivals) :
    Step n limit C { C with
      threads := pre ++ w' :: post
      locked := locked
      arrivals := arrivals }
  | finish {pre post : List PoolThread} {reg called arrived : Bool} {task : ℕ}
      {r : Except Stop Unit}
      (ht : C.threads = pre ++ ⟨reg,called,.busy task arrived (.ret r)⟩ :: post) :
    Step n limit C { C with
      threads := pre ++ ⟨reg,called,.idle⟩ :: post
      finished := task :: C.finished }

def Reach (n limit : ℕ) (flags : List Bool) : Crew → Prop :=
  Relation.ReflTransGen (Step n limit) (start n flags)

end Crew

inductive Shift where
  | entry
  | lock
  | register
  | index
  | enrol
  | unlock
  | barrier
  | done
deriving DecidableEq, Repr

namespace Shift

def atBarrier : Duty := .call .barrierWait (fun _ => .ret (.ok ()))
def atUnlock : Duty := .call .registerUnlock (fun _ => atBarrier)
def atEnrol : Duty := .call .registeredSet (fun _ => atUnlock)
def atIndex : Duty := .call .workerIndex (fun idx =>
  if idx < 0 then .call .workerUnregister (fun _ => atUnlock) else atEnrol)
def atRegister : Duty := .call .workerRegister (fun _ => atIndex)
def atLock : Duty := .call .registerLock (fun _ => atRegister)

def code : Shift → Duty
  | .entry => .call .registeredGet (fun flag => if flag = true then atBarrier else atLock)
  | .lock => atLock
  | .register => atRegister
  | .index => atIndex
  | .enrol => atEnrol
  | .unlock => atUnlock
  | .barrier => atBarrier
  | .done => .ret (.ok ())

theorem entry_code : prewarmTask.prog = entry.code := by
  apply congrArg (Prog.call Call.registeredGet)
  funext flag
  cases flag with
  | true => rfl
  | false =>
    apply congrArg (Prog.call Call.registerLock)
    funext _
    apply congrArg (Prog.call Call.workerRegister)
    funext _
    apply congrArg (Prog.call Call.workerIndex)
    funext idx
    change ((settleRegistration idx >>= fun _ => ffi .registerUnlock) >>=
      fun _ => ffi .barrierWait).prog = _
    by_cases h : (idx : Int) < 0
    · rw [settleRegistration,if_pos h,if_pos h]
      rfl
    · rw [settleRegistration,if_neg h,if_neg h]
      rfl

def critical : Shift → Bool
  | .register => true
  | .index => true
  | .enrol => true
  | .unlock => true
  | _ => false

end Shift

inductive Leg where
  | spawning (handles : List ℕ) (left : ℕ)
  | joining (handles : List ℕ)

def Leg.code : Leg → Duty
  | .spawning handles left => (spawnTasks handles left >>= joinTasks).prog
  | .joining handles => (joinTasks handles).prog

theorem prewarm_code {n : ℕ} (h : 0 < n) : (prewarm n).prog = (Leg.spawning [] n).code := by
  rw [prewarm,if_neg (Nat.ne_of_gt h)]
  rfl

end VclRs
