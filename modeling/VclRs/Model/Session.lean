import VclRs.Model.Ffi

namespace VclRs

open Interaction

section Session

variable [Platform]

def checkRc (rc : Int) : Vcl Unit := rejectIf (rc < 0) (fromRc rc)

def createTcp (nonblocking : Bool) : Vcl Handle := do
  let rc ← vppcomSessionCreate .tcp nonblocking
  checkRc rc
  pure (handleOf rc)

def createUdp (nonblocking : Bool) : Vcl Handle := do
  let rc ← vppcomSessionCreate .udp nonblocking
  checkRc rc
  pure (handleOf rc)

def zeroed : Vector UInt8 16 := .replicate 16 0

def bind (sh : Handle) (addr : SocketAddr) : Vcl Unit := do
  let rc ← vppcomSessionBind sh (endpointIntoBuf addr zeroed)
  checkRc rc

def listen (sh : Handle) (backlog : ℕ) : Vcl Unit := do
  let rc ← vppcomSessionListen sh backlog
  checkRc rc

def sessionAccept (sh : Handle) : Vcl (Handle × SocketAddr) := do
  let (rc,ep) ← vppcomSessionAccept sh
  checkRc rc
  pure (handleOf rc,addrFromEndpoint ep)

def connect (sh : Handle) (addr : SocketAddr) : Vcl Unit := do
  let rc ← vppcomSessionConnect sh (endpointIntoBuf addr zeroed)
  checkRc rc

def startConnect (sh : Handle) (addr : SocketAddr) : Vcl Unit := do
  match ← attempt (connect sh addr) with
  | .ok _ => pure ()
  | .error e => if e = .wouldBlock then pure () else err e

def patch (buf data : List UInt8) : List UInt8 := data.take buf.length ++ buf.drop data.length

omit [Platform] in
theorem patch_length (buf data : List UInt8) : (patch buf data).length = buf.length := by
  simp [patch]
  omega

omit [Platform] in
theorem take_patch {buf data : List UInt8} (h : data.length ≤ buf.length) :
    (patch buf data).take data.length = data := by
  simp [patch,List.take_of_length_le h]

def sessionRead (sh : Handle) (buf : List UInt8) : Vcl (ℕ × List UInt8) := do
  let (rc,data) ← vppcomSessionRead sh buf.length
  checkRc rc
  pure (rc.toNat,patch buf data)

def sessionWrite (sh : Handle) (buf : List UInt8) : Vcl ℕ := do
  let rc ← vppcomSessionWrite sh buf
  checkRc rc
  pure rc.toNat

def recvfrom (sh : Handle) (buf : List UInt8) : Vcl ((ℕ × SocketAddr) × List UInt8) := do
  let (rc,data,ep) ← vppcomSessionRecvfrom sh (asU32 buf.length)
  checkRc rc
  pure ((rc.toNat,addrFromEndpoint ep),patch buf data)

def sendto (sh : Handle) (buf : List UInt8) (dst : SocketAddr) : Vcl ℕ := do
  let rc ← vppcomSessionSendto sh (buf.take (asU32 buf.length)) (endpointIntoBuf dst zeroed)
  checkRc rc
  pure rc.toNat

def setNodelay (sh : Handle) : Vcl Unit := do
  let (rc,_) ← vppcomSessionAttr sh (.setTcpNodelay 1)
  checkRc rc

def setNonblocking (sh : Handle) : Vcl Unit := do
  let (rc,_) ← vppcomSessionAttr sh (.setFlags oNonblock)
  checkRc rc

def addrAttr (op : Attr) (sh : Handle) : Vcl SocketAddr := do
  let (rc,ep) ← vppcomSessionAttr sh op
  checkRc rc
  pure (addrFromEndpoint ep)

def localAddr (sh : Handle) : Vcl SocketAddr := addrAttr .getLclAddr sh
def peerAddr (sh : Handle) : Vcl SocketAddr := addrAttr .getPeerAddr sh

def dropSession (sh : Handle) : Vcl Unit := do
  let _ ← vppcomSessionClose sh
  pure ()

def owning {α : Type} (sh : Handle) (body : Vcl α) : Vcl α := body.onFail (dropSession sh)

def holding {α : Type} (sh : Handle) (body : Vcl α) : Vcl α := body.ensuring (dropSession sh)

end Session

def watchSession (vep sh : Handle) (events : UInt32) : Vcl Unit := do
  let rv ← vppcomEpollCtl vep .add sh (some ⟨events,sh.toUInt64⟩)
  if rv < 0 then do
    let _ ← vppcomSessionClose vep
    err (.api s!"vppcom_epoll_ctl ADD: {rv}" rv)
  else pure ()

end VclRs
