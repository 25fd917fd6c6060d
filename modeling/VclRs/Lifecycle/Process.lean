import VclRs.Interaction.Pool
import VclRs.Rehearsal
import Mathlib.Data.Finset.Basic

namespace VclRs

open Interaction

inductive AppApi where
  | init (name : List UInt8)
  | drop
  | registerWorkerThread
deriving DecidableEq, Repr

structure AppJob where
  api : AppApi
  home : Thread
deriving DecidableEq, Repr

abbrev AppEntry := Record Call Reply AppJob
abbrev AppTask := Task Call Reply AppJob VclApp
abbrev AppPool := Pool Call Reply AppJob VclApp

namespace AppApi

def call [Platform] : AppApi → Vcl (Multiset VclApp)
  | .init name => do
    let app ← VclApp.init name
    pure {app}
  | .drop => do
    VclApp.drop
    pure 0
  | .registerWorkerThread => do
    VclRs.registerWorkerThread
    pure 0

def takes : AppApi → Multiset VclApp
  | .drop => {{}}
  | _ => 0

end AppApi

structure Process where
  initialized : Bool
  live : Bool
  workers : Finset Thread
  registered : Finset Thread
  locked : Bool

namespace Process

def fresh : Process := ⟨false,false,∅,∅,false⟩

def next (s : Process) (home : Thread) : Ev → Process
  | ⟨.initializedSwap v,_⟩ => { s with initialized := v }
  | ⟨.initializedStore v,_⟩ => { s with initialized := v }
  | ⟨.appCreated,rc⟩ =>
    if rc < 0 then s else { s with live := true, workers := insert home s.workers }
  | ⟨.appDestroy,_⟩ => { s with live := false, workers := ∅ }
  | ⟨.workerIndex,idx⟩ => if idx < 0 then s else { s with workers := insert home s.workers }
  | ⟨.workerUnregister,_⟩ => { s with workers := s.workers.erase home }
  | ⟨.registeredSet,_⟩ => { s with registered := insert home s.registered }
  | ⟨.registerLock,_⟩ => { s with locked := true }
  | ⟨.registerUnlock,_⟩ => { s with locked := false }
  | _ => s

def Permits (s : Process) (home : Thread) : Ev → Prop
  | ⟨.initializedSwap _,was⟩ => was = s.initialized
  | ⟨.registeredGet,flag⟩ => flag = decide (home ∈ s.registered)
  | ⟨.registerLock,_⟩ => s.locked = false
  | ⟨.workerIndex,idx⟩ => (home ∈ s.workers → ¬(idx : Int) < 0) ∧ (¬(idx : Int) < 0 → s.live = true)
  | _ => True

def record (s : Process) (x : AppEntry) : Process := s.next x.kind.home x.event

def run (s : Process) (home : Thread) (tr : List Ev) : Process := tr.foldl (·.next home ·) s

def of (log : List AppEntry) : Process := log.foldl record fresh

theorem of_concat (log : List AppEntry) (x : AppEntry) : of (log ++ [x]) = (of log).record x := by
  simp [of,List.foldl_append]

end Process

def creation : Ev → Bool
  | ⟨.appCreated,rc⟩ => decide (¬(rc : Int) < 0)
  | _ => false

def destruction : Ev → Bool
  | ⟨.appDestroy,_⟩ => true
  | _ => false

def lifecycle [Platform] (meets : Process → Ev → Prop) : System Call Reply AppJob VclApp where
  code k := k.api.call.prog.bind (fun r => .ret (r.toOption.getD 0))
  opens _ := True
  takes k := k.api.takes
  lends _ := 0
  admits log k e := (Process.of log).Permits k.home e ∧ meets (Process.of log) e

section Calls

variable {σ α : Type} {C : Contract Call Reply σ} {s : σ} {Q : Multiset VclApp → σ → Prop}

theorem wp_app {x : Vcl (Multiset VclApp)} :
    C.wp (x.prog.bind (fun r => .ret (r.toOption.getD 0))) Q s ↔ C.wpe x Q (fun _ => Q 0) s := by
  rw [C.wp_bind,Contract.wpe]
  constructor <;> intro h <;> apply C.wp_mono h <;> intro r s' hr <;> cases r <;> exact hr

end Calls

def AppJob.performed (k : AppJob) (env : Answers) : List Ev :=
  Fallible.performed (@AppApi.call host k.api) env 20

instance instDecidablePermits (s : Process) (home : Thread) : ∀ e : Ev, Decidable (s.Permits home e)
  | ⟨.initializedSwap _,was⟩ => inferInstanceAs (Decidable (was = s.initialized))
  | ⟨.registeredGet,flag⟩ => inferInstanceAs (Decidable (flag = decide (home ∈ s.registered)))
  | ⟨.registerLock,_⟩ => inferInstanceAs (Decidable (s.locked = false))
  | ⟨.workerIndex,idx⟩ => inferInstanceAs
    (Decidable ((home ∈ s.workers → ¬(idx : Int) < 0) ∧ (¬(idx : Int) < 0 → s.live = true)))
  | ⟨.initializedStore _,_⟩ | ⟨.appCreate _,_⟩ | ⟨.appCreated,_⟩ | ⟨.appDestroy,_⟩
  | ⟨.appDestroyed,_⟩ | ⟨.workerRegister,_⟩ | ⟨.workerUnregister,_⟩ | ⟨.sessionCreate _ _,_⟩
  | ⟨.sessionClose _,_⟩ | ⟨.sessionShutdown _ _,_⟩ | ⟨.sessionBind _ _,_⟩
  | ⟨.sessionListen _ _,_⟩ | ⟨.sessionAccept _,_⟩ | ⟨.sessionConnect _ _,_⟩
  | ⟨.sessionRead _ _,_⟩ | ⟨.sessionWrite _ _,_⟩ | ⟨.sessionSendto _ _ _,_⟩
  | ⟨.sessionRecvfrom _ _,_⟩ | ⟨.sessionAttr _ _,_⟩ | ⟨.epollCreate,_⟩ | ⟨.epollCtl _ _ _ _,_⟩
  | ⟨.epollWait _ _ _,_⟩ | ⟨.mqEpollFd,_⟩ | ⟨.asyncFd _,_⟩ | ⟨.instantNow,_⟩ | ⟨.sleep _,_⟩
  | ⟨.genRange _ _,_⟩ | ⟨.registeredSet,_⟩ | ⟨.registerUnlock,_⟩ | ⟨.waitersEntry _ _,_⟩
  | ⟨.waitersRemove _ _,_⟩ | ⟨.notifyOne _ _,_⟩ | ⟨.notifyEvery _,_⟩ | ⟨.select _ _ _,_⟩
  | ⟨.recheck _,_⟩ | ⟨.clearReady _,_⟩ | ⟨.waitPoll _ _,_⟩ | ⟨.spawnBlocking,_⟩
  | ⟨.joinBlocking,_⟩ | ⟨.taskSpawn,_⟩
  | ⟨.taskJoin _,_⟩ | ⟨.barrierWait,_⟩ => isTrue trivial

section Rehearsal

variable {m : Process → Ev → Prop}

instance instDecidableLifecycle [hd : ∀ s e, Decidable (m s e)] (log : List AppEntry) (k : AppJob)
    (e : Ev) : Decidable ((@lifecycle host m).admits log k e) :=
  @instDecidableAnd _ _ (instDecidablePermits _ _ _) (hd _ _)

theorem lifecycle_call {before : Multiset VclApp} {log : List AppEntry}
    (h : (@lifecycle host m).Reach 0 ⟨0,before,log⟩) (k : AppJob) (os rest : Multiset VclApp)
    (env : Answers) (hb : before = k.api.takes + rest)
    (hadm : (@lifecycle host m).Admitted k log [] (k.performed env))
    (hx : (Fallible.exec (@AppApi.call host k.api) env 20).any
      (fun y => decide (y.1.toOption.getD 0 = os)) = true) :
    (@lifecycle host m).Reach 0 ⟨0,os + rest,log ++ stamps k [] (k.performed env)⟩ := by
  subst hb
  obtain ⟨res,hrun,rfl⟩ := Fallible.performed_run
    (P := fun res => res.toOption.getD 0 = os) env 20 hx
  have hret := Prog.run_bind (f := fun r : Except Stop (Multiset VclApp) =>
    (.ret (r.toOption.getD 0) : Prog Call Reply (Multiset VclApp))) hrun (.ret _)
  rw [List.append_nil] at hret
  exact System.reach_call k trivial (fun _ ho => absurd ho (Multiset.notMem_zero _)) hadm hret h

end Rehearsal

end VclRs
