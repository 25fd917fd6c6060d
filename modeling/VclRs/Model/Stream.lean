import VclRs.Model.Reactor

namespace VclRs

open Interaction

structure VclStream where
  handle : Handle
  reactor : VclReactor
deriving DecidableEq, Repr

def vclToIo (e : VclError) : IoError :=
  match e with
  | .closed => ⟨.unexpectedEof,"VCL session closed"⟩
  | .wouldBlock => ⟨.wouldBlock,"VCL would block"⟩
  | other => ⟨.other,other.display⟩

namespace VclStream

section Methods

variable [Platform]

def bindSource (handle : Handle) : Option SocketAddr → Vcl Unit
  | none => pure ()
  | some src => bind handle src

def blockingConnect (addr : SocketAddr) : Vcl Handle := do
  registerWorkerThread
  let blockingSh ← vppcomSessionCreate .tcp false
  checkRc blockingSh
  let rc ← vppcomSessionConnect (handleOf blockingSh) (endpointIntoBuf addr zeroed)
  if rc < 0 then do
    let _ ← vppcomSessionClose (handleOf blockingSh)
    err (fromRc rc)
  else pure (handleOf blockingSh)

def connect (addr : SocketAddr) (source : Option SocketAddr) (_timeout : Duration)
    (reactor : VclReactor) : Vcl VclStream := do
  registerWorkerThread
  let handle ← createTcp true
  let connectResult ← owning handle (do
    let _ ← attempt (setNodelay handle)
    bindSource handle source
    spawnBlocking (blockingConnect addr))
  let _ ← attempt (setNodelay connectResult)
  pure ⟨connectResult,reactor⟩

def connectAsync (addr : SocketAddr) (source : Option SocketAddr) (reactor : VclReactor)
    (timeout : Duration) : Vcl VclStream := do
  registerWorkerThread
  let handle ← createTcp true
  owning handle (do
    let _ ← attempt (setNodelay handle)
    bindSource handle source
    reactor.register handle
    startConnect handle addr
    reactor.waitWritable handle timeout
    pure ⟨handle,reactor⟩)

def fromAccepted (handle : Handle) (reactor : VclReactor) : Vcl VclStream :=
  owning handle (do
    setNonblocking handle
    let _ ← attempt (setNodelay handle)
    pure ⟨handle,reactor⟩)

def read (s : VclStream) (buf : List UInt8) : Vcl (ℕ × List UInt8) :=
  Fallible.loop (fun _ => do
    match ← attempt (sessionRead s.handle buf) with
    | .ok x => if x.1 = 0 then err .closed else pure (.inr x)
    | .error e =>
      if e.transient then do
        s.reactor.waitReadable s.handle (secs 300)
        pure (.inl ())
      else err e) ()

def readExact (s : VclStream) (buf : List UInt8) : Vcl (List UInt8) :=
  Fallible.loop (fun (st : ℕ × List UInt8) => do
    if st.1 < st.2.length then do
      let (n,slice) ← s.read (st.2.drop st.1)
      pure (.inl (st.1 + n,st.2.take st.1 ++ slice))
    else pure (.inr st.2)) (0,buf)

def writeAll (s : VclStream) (buf : List UInt8) : Vcl Unit :=
  Fallible.loop (fun pos => do
    if pos < buf.length then do
      match ← attempt (sessionWrite s.handle (buf.drop pos)) with
      | .ok n => pure (.inl (pos + n))
      | .error e =>
        if e.transient then do
          s.reactor.waitWritable s.handle (secs 300)
          pure (.inl pos)
        else err e
    else pure (.inr ())) 0

def localAddr (s : VclStream) : Vcl (Except VclError SocketAddr) := attempt (VclRs.localAddr s.handle)

def peerAddr (s : VclStream) : Vcl (Except VclError SocketAddr) := attempt (VclRs.peerAddr s.handle)

def drop (s : VclStream) : Vcl Unit := do
  s.reactor.deregister s.handle
  dropSession s.handle

def arm (s : VclStream) : Vcl Unit := do
  let _ ← ffi (.waitersEntry s.reactor.vep s.handle)
  let _ ← instantNow
  pure ()

def pollPending (s : VclStream) (pending : Bool) (cx : ℕ) : Vcl (Poll (Except VclError Unit)) :=
  if pending then ffi (.waitPoll s.handle cx) else pure (.ready (.ok ()))

def pollRead (s : VclStream) (pendingReadable : Bool) (cx : ℕ) (unfilled : List UInt8) :
    Vcl (Poll (Except IoError (List UInt8)) × Bool) :=
  Fallible.loop (fun pending => do
    match ← s.pollPending pending cx with
    | .pending => pure (.inr (.pending,true))
    | .ready (.error e) => pure (.inr (.ready (.error (vclToIo e)),false))
    | .ready (.ok _) =>
      match ← attempt (sessionRead s.handle unfilled) with
      | .ok x => pure (.inr (.ready (.ok (x.2.take x.1)),false))
      | .error e =>
        if e.transient then do
          s.arm
          pure (.inl true)
        else if e = .closed then pure (.inr (.ready (.ok []),false))
        else pure (.inr (.ready (.error (vclToIo e)),false))) pendingReadable

def pollWrite (s : VclStream) (pendingWritable : Bool) (cx : ℕ) (buf : List UInt8) :
    Vcl (Poll (Except IoError ℕ) × Bool) :=
  Fallible.loop (fun pending => do
    match ← s.pollPending pending cx with
    | .pending => pure (.inr (.pending,true))
    | .ready (.error e) => pure (.inr (.ready (.error (vclToIo e)),false))
    | .ready (.ok _) =>
      match ← attempt (sessionWrite s.handle buf) with
      | .ok n => pure (.inr (.ready (.ok n),false))
      | .error e =>
        if e.transient then do
          s.arm
          pure (.inl true)
        else pure (.inr (.ready (.error (vclToIo e)),false))) pendingWritable

def pollFlush (_s : VclStream) : Vcl (Poll (Except IoError Unit)) := pure (.ready (.ok ()))

def pollShutdown (s : VclStream) : Vcl (Poll (Except IoError Unit)) := do
  let rc ← vppcomSessionShutdown s.handle shutWr
  if rc < 0 then pure (.ready (.error (vclToIo (fromRc rc)))) else pure (.ready (.ok ()))

end Methods

end VclStream

end VclRs
