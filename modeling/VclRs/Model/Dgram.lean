import VclRs.Model.Listener

namespace VclRs

open Interaction

def portLow : ℕ := 32768
def portHigh : ℕ := 60999

structure VclDgramSocket where
  handle : Handle
  reactor : VclReactor
deriving DecidableEq, Repr

namespace VclDgramSocket

section Methods

variable [Platform]

def bind (addr : SocketAddr) (reactor : VclReactor) : Vcl VclDgramSocket := do
  registerWorkerThread
  let handle ← createUdp true
  owning handle (do
    VclRs.bind handle addr
    listen handle 0
    verifyBindOrErr handle addr
    reactor.register handle
    pure ⟨handle,reactor⟩)

def bindAttempts (ipStr : String) (reactor : VclReactor) :
    ℕ → Option VclError → Vcl VclDgramSocket
  | 0, lastErr => err (lastErr.getD (.api "exhausted ephemeral bind retries" (-1)))
  | n + 1, _ => do
    let port ← genRange portLow portHigh
    match SocketAddr.parse s!"{ipStr}:{port}" with
    | none => err (.api "ephemeral addr parse: invalid socket address syntax" (-1))
    | some addr =>
      match ← attempt (VclDgramSocket.bind addr reactor) with
      | .ok sock => pure sock
      | .error e => bindAttempts ipStr reactor n (some e)

def bindRandomEphemeral (ipStr : String) (reactor : VclReactor) : Vcl VclDgramSocket :=
  bindAttempts ipStr reactor 8 none

def bindEphemeralV4 (reactor : VclReactor) : Vcl VclDgramSocket :=
  bindRandomEphemeral "0.0.0.0" reactor

def bindEphemeralV6 (reactor : VclReactor) : Vcl VclDgramSocket := bindRandomEphemeral "::" reactor

def recvFrom (d : VclDgramSocket) (buf : List UInt8) : Vcl ((ℕ × SocketAddr) × List UInt8) :=
  Fallible.loop (fun _ => do
    match ← attempt (recvfrom d.handle buf) with
    | .ok x => pure (.inr x)
    | .error e =>
      if e = .wouldBlock then do
        match ← attempt (d.reactor.waitReadable d.handle (secs 300)) with
        | .ok _ => pure (.inl ())
        | .error e => if e = .timeout then pure (.inl ()) else err e
      else err e) ()

def tryRecvFrom (d : VclDgramSocket) (buf : List UInt8) :
    Vcl (Option ((ℕ × SocketAddr) × List UInt8)) := do
  match ← attempt (recvfrom d.handle buf) with
  | .ok x => pure (some x)
  | .error e => if e = .wouldBlock then pure none else err e

def waitReadable (d : VclDgramSocket) : Vcl Unit := do
  match ← attempt (d.reactor.waitReadable d.handle (secs 300)) with
  | .ok _ => pure ()
  | .error e => if e = .timeout then pure () else err e

def sendTo (d : VclDgramSocket) (buf : List UInt8) (dst : SocketAddr) : Vcl ℕ :=
  Fallible.loop (fun _ => do
    match ← attempt (sendto d.handle buf dst) with
    | .ok n => pure (.inr n)
    | .error e =>
      if e = .wouldBlock then do
        d.reactor.waitWritable d.handle (secs 30)
        pure (.inl ())
      else err e) ()

def localAddr (d : VclDgramSocket) : Vcl (Except VclError SocketAddr) :=
  attempt (VclRs.localAddr d.handle)

def drop (d : VclDgramSocket) : Vcl Unit := do
  d.reactor.deregister d.handle
  dropSession d.handle

end Methods

end VclDgramSocket

section Udp

variable [Platform]

def bindEphemeral (handle : Handle) (ip : IpAddr) : ℕ → Vcl Bool
  | 0 => pure false
  | n + 1 => do
    let port ← genRange portLow portHigh
    match ← attempt (bind handle (.new ip (.ofNat port))) with
    | .ok _ => pure true
    | .error _ => bindEphemeral handle ip n

def wildcardFor (isIpv4 : Bool) : IpAddr :=
  if isIpv4 then .unspecifiedV4 else .unspecifiedV6

def sourceIp (source : Option IpAddr) (peer : SocketAddr) : Vcl IpAddr :=
  match source with
  | some ip =>
    if ip.isIpv4 ≠ peer.isIpv4 then
      err (.api (s!"source IP family ({ip.display}) doesn't match peer family " ++
        s!"({peer.display})") (-1))
    else pure ip
  | none => pure (wildcardFor peer.isIpv4)

def awaitDatagram (handle : Handle) (deadline : Instant) : Vcl (List UInt8 × SocketAddr) :=
  Fallible.loop (fun (buf : List UInt8) => do
    match ← attempt (recvfrom handle buf) with
    | .ok x => pure (.inr (x.2.take x.1.1,x.1.2))
    | .error e =>
      if e = .wouldBlock then do
        let now ← instantNow
        rejectIf (deadline ≤ now) .timeout
        ffi (.sleep (millis 5))
        pure (.inl buf)
      else err e) (List.replicate 4096 0)

def queryUdpSync (peer : SocketAddr) (source : Option IpAddr) (query : List UInt8)
    (timeout : Duration) : Vcl (List UInt8 × SocketAddr) := do
  registerWorkerThread
  let handle ← createUdp true
  holding handle (do
    let bindIp ← sourceIp source peer
    let bound ← bindEphemeral handle bindIp 8
    rejectIf (bound = false) (.api "ephemeral bind exhausted" (-1))
    listen handle 0
    let _ ← sendto handle query peer
    let start ← instantNow
    awaitDatagram handle (start + timeout))

def probeLocalSource (peer : SocketAddr) : Vcl SocketAddr := do
  registerWorkerThread
  let handle ← createUdp false
  holding handle (do
    let bound ← bindEphemeral handle (wildcardFor peer.isIpv4) 8
    rejectIf (bound = false) (.api "probe: ephemeral bind exhausted" (-1))
    connect handle peer
    localAddr handle)

end Udp

structure VclUdpSyncSocket where
  handle : Handle
deriving DecidableEq, Repr

namespace VclUdpSyncSocket

section Methods

variable [Platform]

def familyIp (source : Option IpAddr) (isV6 : Bool) : Vcl IpAddr :=
  match source, isV6 with
  | some (.v4 octets), false => pure (.v4 octets)
  | some (.v6 octets), true => pure (.v6 octets)
  | some ip, _ => err (.api s!"source {ip.display} family doesn't match is_v6={isV6}" (-1))
  | none, false => pure .unspecifiedV4
  | none, true => pure .unspecifiedV6

def bind (source : Option IpAddr) (isV6 : Bool) : Vcl VclUdpSyncSocket := do
  registerWorkerThread
  let handle ← createUdp true
  owning handle (do
    let bindIp ← familyIp source isV6
    let bound ← bindEphemeral handle bindIp 8
    rejectIf (bound = false) (.api "ephemeral bind exhausted" (-1))
    listen handle 0
    pure ⟨handle⟩)

def localAddr (u : VclUdpSyncSocket) : Vcl SocketAddr := VclRs.localAddr u.handle

def query (u : VclUdpSyncSocket) (peer : SocketAddr) (query : List UInt8) (timeout : Duration) :
    Vcl (List UInt8 × SocketAddr) := do
  let _ ← sendto u.handle query peer
  let start ← instantNow
  let deadline := start + timeout
  Fallible.loop (fun (buf : List UInt8) => do
    match ← attempt (recvfrom u.handle buf) with
    | .ok x =>
      if x.1.2.ip ≠ peer.ip then pure (.inl x.2)
      else pure (.inr (x.2.take x.1.1,x.1.2))
    | .error e =>
      if e = .wouldBlock then do
        let now ← instantNow
        rejectIf (deadline ≤ now) .timeout
        ffi (.sleep (millis 5))
        pure (.inl buf)
      else err e) (List.replicate 4096 0)

def drop (u : VclUdpSyncSocket) : Vcl Unit := dropSession u.handle

end Methods

end VclUdpSyncSocket

end VclRs
