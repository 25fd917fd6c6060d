import VclRs.Model.Dgram

namespace VclRs

open Interaction

def toBeBytes (n : ℕ) : List UInt8 := [.ofNat (n / 256),.ofNat (n % 256)]

def fromBeBytes (hi lo : UInt8) : ℕ := 256 * hi.toNat + lo.toNat

def frameTcpDnsQuery (query : List UInt8) : Except VclError (List UInt8) :=
  if query.length ≤ 65535 then .ok (toBeBytes query.length ++ query)
  else .error (.api s!"DNS query too large for TCP framing: {query.length} bytes" (-1))

def decodeTcpDnsLen (hi lo : UInt8) : Except VclError ℕ :=
  if fromBeBytes hi lo = 0 then .error (.api "zero-length DNS response" (-1))
  else .ok (fromBeBytes hi lo)

def ofExcept {α : Type} : Except VclError α → Vcl α
  | .ok a => pure a
  | .error e => err e

def familyMismatch (ip : IpAddr) (peer : SocketAddr) : VclError :=
  .api s!"source IP family ({ip.display}) doesn't match peer ({peer.display})" (-1)

def genPorts : ℕ → Vcl (List ℕ)
  | 0 => pure []
  | n + 1 => do
    let port ← genRange portLow portHigh
    let ports ← genPorts n
    pure (port :: ports)

section Async

variable [Platform]

def connectPorts (peer : SocketAddr) (ip : IpAddr) (reactor : VclReactor) (timeout : Duration)
    (started : Instant) : List ℕ → Option VclError → Vcl VclStream
  | [], lastErr => err (lastErr.getD (.api "connect retries exhausted" (-1)))
  | port :: ports, _ => do
    let now ← instantNow
    let remaining := timeout - (now - started)
    if remaining = 0 then err .timeout
    else do
      match ← attempt
          (VclStream.connectAsync peer (some (.new ip (.ofNat port))) reactor remaining) with
      | .ok s => pure s
      | .error e => connectPorts peer ip reactor timeout started ports (some e)

def connectSource (peer : SocketAddr) (source : Option IpAddr) (reactor : VclReactor)
    (timeout : Duration) (started : Instant) : Vcl VclStream :=
  match source with
  | some ip =>
    if ip.isIpv4 ≠ peer.isIpv4 then err (familyMismatch ip peer)
    else do
      let ports ← genPorts 8
      connectPorts peer ip reactor timeout started ports none
  | none => VclStream.connectAsync peer none reactor timeout

def exchange (stream : VclStream) (query : List UInt8) : Vcl (List UInt8) := do
  let framed ← ofExcept (frameTcpDnsQuery query)
  stream.writeAll framed
  let lenbuf ← stream.readExact [0,0]
  let len ← ofExcept (decodeTcpDnsLen (lenbuf.getD 0 0) (lenbuf.getD 1 0))
  stream.readExact (List.replicate len 0)

def queryTcpDnsAsync (peer : SocketAddr) (source : Option IpAddr) (query : List UInt8)
    (reactor : VclReactor) (timeout : Duration) : Vcl (List UInt8) := do
  let started ← instantNow
  let stream ← connectSource peer source reactor timeout started
  (exchange stream query).ensuring stream.drop

end Async

section Sync

variable [Platform]

def drainMq (vep : Handle) (waitMs : ℕ) : Vcl Unit := do
  let _ ← vppcomEpollWait vep 4 waitMs
  pure ()

def writeLoop (handle vep : Handle) (deadline : Instant) (framed : List UInt8) : Vcl Unit :=
  Fallible.loop (fun sent => do
    if sent < framed.length then do
      match ← attempt (sessionWrite handle (framed.drop sent)) with
      | .ok n => pure (.inl (sent + n))
      | .error e =>
        if e.transient then do
          let now ← instantNow
          rejectIf (deadline ≤ now) .timeout
          drainMq vep 5
          pure (.inl sent)
        else err e
    else pure (.inr ())) 0

def readLoop (handle vep : Handle) (deadline : Instant) (buf : List UInt8) : Vcl (List UInt8) :=
  Fallible.loop (fun (st : ℕ × List UInt8) => do
    if st.1 < st.2.length then do
      let now ← instantNow
      rejectIf (deadline ≤ now) .timeout
      match ← attempt (sessionRead handle (st.2.drop st.1)) with
      | .ok x =>
        if x.1 = 0 then err .closed
        else pure (.inl (st.1 + x.1,st.2.take st.1 ++ x.2))
      | .error e =>
        if e.transient then do
          drainMq vep 5
          pure (.inl st)
        else err e
    else pure (.inr st.2)) (0,buf)

def bindSourceIp (handle : Handle) (peer : SocketAddr) : Option IpAddr → Vcl Unit
  | none => pure ()
  | some ip =>
    if ip.isIpv4 ≠ peer.isIpv4 then err (familyMismatch ip peer)
    else do
      let bound ← bindEphemeral handle ip 8
      rejectIf (bound = false) (.api "ephemeral source bind exhausted" (-1))

def exchangeSync (handle vep : Handle) (peer : SocketAddr) (query : List UInt8)
    (timeout : Duration) : Vcl (List UInt8) := do
  startConnect handle peer
  let start ← instantNow
  let deadline := start + timeout
  let framed ← ofExcept (frameTcpDnsQuery query)
  writeLoop handle vep deadline framed
  let lenbuf ← readLoop handle vep deadline [0,0]
  let len ← ofExcept (decodeTcpDnsLen (lenbuf.getD 0 0) (lenbuf.getD 1 0))
  readLoop handle vep deadline (List.replicate len 0)

def queryTcpDnsSync (peer : SocketAddr) (source : Option IpAddr) (query : List UInt8)
    (timeout : Duration) : Vcl (List UInt8) := do
  registerWorkerThread
  let handle ← createTcp true
  holding handle (do
    bindSourceIp handle peer source
    let vep ← vppcomEpollCreate
    rejectIf (vep < 0) (.api s!"vppcom_epoll_create: {vep}" vep)
    watchSession (handleOf vep) handle (epollin ||| epollout ||| epollet)
    holding (handleOf vep) (exchangeSync handle (handleOf vep) peer query timeout))

end Sync

end VclRs
