import VclRs.Model.Stream

namespace VclRs

open Interaction

def bindAllEvents : UInt32 := epollin ||| epollout ||| epollhup ||| epollrdhup ||| epollet

section Verify

variable [Platform]

def drainFor (vep : Handle) (deadline : Instant) : Vcl Unit :=
  Fallible.loop (fun _ => do
    let now ← instantNow
    if now < deadline then do
      let _ ← vppcomEpollWait vep 8 30
      pure (.inl ())
    else pure (.inr ())) ()

def rejected (requested : SocketAddr) (e : VclError) : VclError :=
  .api (s!"VPP rejected bind on {requested.display}: {e.debug} " ++
    "(port-in-use is the common cause; libvppcom logs the specific reason)") (-1)

def mismatched (actual requested : SocketAddr) : VclError :=
  .api (s!"VPP bound {actual.display} but we asked for {requested.display} " ++
    "(port mismatch — likely VPP picked a different port because the requested one was unavailable)")
    (-1)

def queryBound (session : Handle) (requested : SocketAddr) : Vcl SocketAddr := do
  match ← attempt (localAddr session) with
  | .ok actual => pure actual
  | .error e => err (rejected requested e)

def verifyBindOrErr (session : Handle) (requested : SocketAddr) : Vcl Unit := do
  let vep ← vppcomEpollCreate
  rejectIf (vep < 0) (.api s!"vppcom_epoll_create: {vep}" vep)
  watchSession (handleOf vep) session bindAllEvents
  let start ← instantNow
  drainFor (handleOf vep) (start + millis 200)
  let _ ← vppcomSessionClose (handleOf vep)
  let actual ← owning session (queryBound session requested)
  rejectIf (actual.port ≠ requested.port) (mismatched actual requested)

end Verify

structure VclListener where
  handle : Handle
  reactor : VclReactor
deriving DecidableEq, Repr

namespace VclListener

section Methods

variable [Platform]

def bind (addr : SocketAddr) (reactor : VclReactor) : Vcl VclListener := do
  registerWorkerThread
  let handle ← createTcp true
  owning handle (do
    VclRs.bind handle addr
    listen handle 128
    verifyBindOrErr handle addr
    reactor.register handle
    pure ⟨handle,reactor⟩)

def accept (l : VclListener) : Vcl (VclStream × SocketAddr) :=
  Fallible.loop (fun _ => do
    match ← attempt (sessionAccept l.handle) with
    | .ok (client,peer) =>
      owning client (l.reactor.register client)
      let stream ← VclStream.fromAccepted client l.reactor
      pure (.inr (stream,peer))
    | .error e =>
      if e = .wouldBlock then do
        match ← attempt (l.reactor.waitReadable l.handle (secs 300)) with
        | .ok _ => pure (.inl ())
        | .error e => if e = .timeout then pure (.inl ()) else err e
      else err e) ()

def localAddr (l : VclListener) : Vcl (Except VclError SocketAddr) :=
  attempt (VclRs.localAddr l.handle)

def drop (l : VclListener) : Vcl Unit := do
  l.reactor.deregister l.handle
  dropSession l.handle

end Methods

end VclListener

end VclRs
