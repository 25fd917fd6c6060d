import VclRs.Model.App

namespace VclRs

open Interaction

structure VclReactor where
  vep : Handle
deriving DecidableEq, Repr

namespace VclReactor

section New

variable [Platform]

def new : Vcl VclReactor := do
  let vep ← vppcomEpollCreate
  checkRc vep
  let mqRaw ← vppcomMqEpollFd
  rejectIf (mqRaw < 0) (.api "vppcom_mq_epoll_fd returned negative" mqRaw)
  match ← ffi (.asyncFd mqRaw) with
  | .error e => err (.io e)
  | .ok _ => pure ⟨handleOf vep⟩

def register (r : VclReactor) (sh : Handle) : Vcl Unit := do
  let ev : EpollEvent := ⟨epollin ||| epollout ||| epollet,sh.toUInt64⟩
  let rc ← vppcomEpollCtl r.vep .add sh (some ev)
  checkRc rc

end New

def deregister (r : VclReactor) (sh : Handle) : Vcl Unit := do
  ffi (.waitersRemove r.vep sh)
  let _ ← vppcomEpollCtl r.vep .del sh none
  pure ()

def notifyEach (r : VclReactor) : List EpollEvent → Vcl Unit
  | [] => pure ()
  | e :: es => do
    ffi (.notifyOne r.vep e.data.toUInt32)
    notifyEach r es

def drainEvents (r : VclReactor) : Vcl Unit :=
  Fallible.loop (fun _ => do
    let (n,events) ← vppcomEpollWait r.vep 64 0
    if n ≤ 0 then pure (.inr ())
    else do
      notifyEach r (events.take n.toNat)
      if n.toNat < 64 then pure (.inr ()) else pure (.inl ())) ()

def tick (r : VclReactor) : Vcl Unit := do
  drainEvents r
  ffi (.notifyEvery r.vep)

def waitLoop (r : VclReactor) (notify : NotifyId) (deadline : Instant) : Vcl Unit :=
  Fallible.loop (fun _ => do
    match (← ffi (.select r.vep notify deadline)).2 with
    | .readFailed e => err (.io e)
    | .readable =>
      drainEvents r
      ffi (.clearReady r.vep)
      match (← ffi (.recheck notify)).2 with
      | .notified => pure (.inr ())
      | .elapsed => pure (.inl ())
      | .dropped => Fallible.fail .dropped
    | .notified => pure (.inr ())
    | .elapsed => err .timeout
    | .dropped => Fallible.fail .dropped) ()

def waitEvent (r : VclReactor) (sh : Handle) (_eventMask : UInt32) (timeout : Duration) :
    Vcl Unit := do
  let notify ← ffi (.waitersEntry r.vep sh)
  let now ← instantNow
  waitLoop r notify (now + timeout)

def waitReadable (r : VclReactor) (sh : Handle) (timeout : Duration) : Vcl Unit :=
  waitEvent r sh epollin timeout

def waitWritable (r : VclReactor) (sh : Handle) (timeout : Duration) : Vcl Unit :=
  waitEvent r sh epollout timeout

end VclReactor

end VclRs
