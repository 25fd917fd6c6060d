import VclRs.Interaction.Pool
import VclRs.Footprint

namespace VclRs

open Interaction

inductive Obj where
  | reactor (r : VclReactor)
  | listener (l : VclListener)
  | stream (s : VclStream)
  | dgram (d : VclDgramSocket)
  | udp (u : VclUdpSyncSocket)
deriving DecidableEq, Repr

def Obj.handles : Obj → Multiset Handle
  | .reactor _ => 0
  | .listener l => {l.handle}
  | .stream s => {s.handle}
  | .dgram d => {d.handle}
  | .udp u => {u.handle}

inductive Api where
  | reactorNew
  | reactorClone (r : VclReactor)
  | reactorDrop (r : VclReactor)
  | tick (r : VclReactor)
  | listenerBind (addr : SocketAddr) (r : VclReactor)
  | listenerAccept (l : VclListener)
  | listenerLocalAddr (l : VclListener)
  | listenerDrop (l : VclListener)
  | streamConnect (addr : SocketAddr) (source : Option SocketAddr) (timeout : Duration)
      (r : VclReactor)
  | streamConnectAsync (addr : SocketAddr) (source : Option SocketAddr) (r : VclReactor)
      (timeout : Duration)
  | streamRead (s : VclStream) (buf : List UInt8)
  | streamReadExact (s : VclStream) (buf : List UInt8)
  | streamWriteAll (s : VclStream) (buf : List UInt8)
  | streamLocalAddr (s : VclStream)
  | streamPeerAddr (s : VclStream)
  | streamPollRead (s : VclStream) (pending : Bool) (cx : ℕ) (unfilled : List UInt8)
  | streamPollWrite (s : VclStream) (pending : Bool) (cx : ℕ) (buf : List UInt8)
  | streamPollFlush (s : VclStream)
  | streamPollShutdown (s : VclStream)
  | streamDrop (s : VclStream)
  | dgramBind (addr : SocketAddr) (r : VclReactor)
  | dgramBindEphemeralV4 (r : VclReactor)
  | dgramBindEphemeralV6 (r : VclReactor)
  | dgramRecvFrom (d : VclDgramSocket) (buf : List UInt8)
  | dgramTryRecvFrom (d : VclDgramSocket) (buf : List UInt8)
  | dgramWaitReadable (d : VclDgramSocket)
  | dgramSendTo (d : VclDgramSocket) (buf : List UInt8) (dst : SocketAddr)
  | dgramLocalAddr (d : VclDgramSocket)
  | dgramDrop (d : VclDgramSocket)
  | udpBind (source : Option IpAddr) (isV6 : Bool)
  | udpLocalAddr (u : VclUdpSyncSocket)
  | udpQuery (u : VclUdpSyncSocket) (peer : SocketAddr) (query : List UInt8) (timeout : Duration)
  | udpDrop (u : VclUdpSyncSocket)
  | queryUdpSync (peer : SocketAddr) (source : Option IpAddr) (query : List UInt8)
      (timeout : Duration)
  | probeLocalSource (peer : SocketAddr)
  | queryTcpDnsSync (peer : SocketAddr) (source : Option IpAddr) (query : List UInt8)
      (timeout : Duration)
  | queryTcpDnsAsync (peer : SocketAddr) (source : Option IpAddr) (query : List UInt8)
      (r : VclReactor) (timeout : Duration)
deriving DecidableEq, Repr

def giving {α : Type} (x : Vcl α) (f : α → Obj) : Vcl (Multiset Obj) := do
  let a ← x
  pure {f a}

def serving {α : Type} (x : Vcl α) : Vcl (Multiset Obj) := do
  let _ ← x
  pure 0

namespace Api

section Calls

variable [Platform]

def call : Api → Vcl (Multiset Obj)
  | .reactorNew => giving VclReactor.new .reactor
  | .reactorClone r => pure {.reactor r}
  | .reactorDrop _ => pure 0
  | .tick r => serving r.tick
  | .listenerBind addr r => giving (VclListener.bind addr r) .listener
  | .listenerAccept l => giving l.accept (fun x => .stream x.1)
  | .listenerLocalAddr l => serving l.localAddr
  | .listenerDrop l => serving l.drop
  | .streamConnect addr source timeout r =>
    giving (VclStream.connect addr source timeout r) .stream
  | .streamConnectAsync addr source r timeout =>
    giving (VclStream.connectAsync addr source r timeout) .stream
  | .streamRead s buf => serving (s.read buf)
  | .streamReadExact s buf => serving (s.readExact buf)
  | .streamWriteAll s buf => serving (s.writeAll buf)
  | .streamLocalAddr s => serving s.localAddr
  | .streamPeerAddr s => serving s.peerAddr
  | .streamPollRead s pending cx unfilled => serving (s.pollRead pending cx unfilled)
  | .streamPollWrite s pending cx buf => serving (s.pollWrite pending cx buf)
  | .streamPollFlush s => serving s.pollFlush
  | .streamPollShutdown s => serving s.pollShutdown
  | .streamDrop s => serving s.drop
  | .dgramBind addr r => giving (VclDgramSocket.bind addr r) .dgram
  | .dgramBindEphemeralV4 r => giving (VclDgramSocket.bindEphemeralV4 r) .dgram
  | .dgramBindEphemeralV6 r => giving (VclDgramSocket.bindEphemeralV6 r) .dgram
  | .dgramRecvFrom d buf => serving (d.recvFrom buf)
  | .dgramTryRecvFrom d buf => serving (d.tryRecvFrom buf)
  | .dgramWaitReadable d => serving d.waitReadable
  | .dgramSendTo d buf dst => serving (d.sendTo buf dst)
  | .dgramLocalAddr d => serving d.localAddr
  | .dgramDrop d => serving d.drop
  | .udpBind source isV6 => giving (VclUdpSyncSocket.bind source isV6) .udp
  | .udpLocalAddr u => serving u.localAddr
  | .udpQuery u peer query timeout => serving (u.query peer query timeout)
  | .udpDrop u => serving u.drop
  | .queryUdpSync peer source query timeout => serving (VclRs.queryUdpSync peer source query timeout)
  | .probeLocalSource peer => serving (VclRs.probeLocalSource peer)
  | .queryTcpDnsSync peer source query timeout =>
    serving (VclRs.queryTcpDnsSync peer source query timeout)
  | .queryTcpDnsAsync peer source query r timeout =>
    serving (VclRs.queryTcpDnsAsync peer source query r timeout)

end Calls

def takes : Api → Multiset Obj
  | .reactorDrop r => {.reactor r}
  | .listenerBind _ r => {.reactor r}
  | .listenerDrop l => {.listener l}
  | .streamConnect _ _ _ r => {.reactor r}
  | .streamConnectAsync _ _ r _ => {.reactor r}
  | .streamDrop s => {.stream s}
  | .dgramBind _ r => {.reactor r}
  | .dgramBindEphemeralV4 r => {.reactor r}
  | .dgramBindEphemeralV6 r => {.reactor r}
  | .dgramDrop d => {.dgram d}
  | .udpDrop u => {.udp u}
  | .queryTcpDnsAsync _ _ _ r _ => {.reactor r}
  | _ => 0

def lends : Api → Multiset Obj
  | .reactorClone r => {.reactor r}
  | .listenerAccept l => {.listener l}
  | .listenerLocalAddr l => {.listener l}
  | .streamRead s _ => {.stream s}
  | .streamReadExact s _ => {.stream s}
  | .streamWriteAll s _ => {.stream s}
  | .streamLocalAddr s => {.stream s}
  | .streamPeerAddr s => {.stream s}
  | .streamPollRead s _ _ _ => {.stream s}
  | .streamPollWrite s _ _ _ => {.stream s}
  | .streamPollFlush s => {.stream s}
  | .streamPollShutdown s => {.stream s}
  | .dgramRecvFrom d _ => {.dgram d}
  | .dgramTryRecvFrom d _ => {.dgram d}
  | .dgramWaitReadable d => {.dgram d}
  | .dgramSendTo d _ _ => {.dgram d}
  | .dgramLocalAddr d => {.dgram d}
  | .udpLocalAddr u => {.udp u}
  | .udpQuery u _ _ _ => {.udp u}
  | _ => 0

end Api

def Api.binding : Api → Bool
  | .listenerBind _ _ => true
  | .dgramBind _ _ => true
  | .dgramBindEphemeralV4 _ => true
  | .dgramBindEphemeralV6 _ => true
  | _ => false

structure Job where
  api : Api
  home : Thread
deriving DecidableEq, Repr

abbrev Entry := Record Call Reply Job

def events (log : List Entry) : List Ev := log.map Record.event

theorem events_append (log log' : List Entry) : events (log ++ log') = events log ++ events log' :=
  List.map_append

def yielding (home : Thread) (x : Vcl (Multiset Obj)) :
    Prog Call Reply (Multiset (Thread × Obj)) :=
  x.prog.bind (fun r => .ret ((r.toOption.getD 0).map (Prod.mk home)))

def world [Platform] (opens : Api → Prop) (admits : List Entry → Job → Ev → Prop) :
    System Call Reply Job (Thread × Obj) where
  code k := yielding k.home k.api.call
  opens k := opens k.api
  takes k := k.api.takes.map (Prod.mk k.home)
  lends k := k.api.lends.map (Prod.mk k.home)
  admits := admits

theorem yielding_run {home : Thread} {x : Vcl (Multiset Obj)} {tr : List Ev}
    {res : Except Stop (Multiset Obj)} (h : x.Run tr res) :
    Prog.Run (yielding home x) tr ((res.toOption.getD 0).map (Prod.mk home)) := by
  have hr := Prog.run_bind (f := fun r : Except Stop (Multiset Obj) =>
    (.ret ((r.toOption.getD 0).map (Prod.mk home)) : Prog Call Reply (Multiset (Thread × Obj))))
    h (.ret _)
  rw [List.append_nil] at hr
  exact hr

section Yields

variable {σ α : Type} {C : Contract Call Reply σ} {home : Thread} {s : σ}
variable {Q : Multiset (Thread × Obj) → σ → Prop}

theorem wp_yielding {x : Vcl (Multiset Obj)} : C.wp (yielding home x) Q s ↔
    C.wpe x (fun os => Q (os.map (Prod.mk home))) (fun _ => Q 0) s := by
  rw [yielding,C.wp_bind,Contract.wpe]
  constructor <;> intro h <;> apply C.wp_mono h <;> intro r s' hr <;> cases r <;> exact hr

theorem wp_giving {x : Vcl α} {f : α → Obj} : C.wp (yielding home (giving x f)) Q s ↔
    C.wpe x (fun a => Q {(home,f a)}) (fun _ => Q 0) s := by
  simp only [wp_yielding,giving,Contract.wpe_bind,Contract.wpe_pure,Multiset.map_singleton]

theorem wp_serving {x : Vcl α} : C.wp (yielding home (serving x)) Q s ↔
    C.wpe x (fun _ => Q 0) (fun _ => Q 0) s := by
  simp only [wp_yielding,serving,Contract.wpe_bind,Contract.wpe_pure,Multiset.map_zero]

end Yields

def Api.method : Api → Option (Handle × Handle)
  | .listenerLocalAddr l => some (l.reactor.vep,l.handle)
  | .streamRead s _ => some (s.reactor.vep,s.handle)
  | .streamReadExact s _ => some (s.reactor.vep,s.handle)
  | .streamWriteAll s _ => some (s.reactor.vep,s.handle)
  | .streamLocalAddr s => some (s.reactor.vep,s.handle)
  | .streamPeerAddr s => some (s.reactor.vep,s.handle)
  | .streamPollRead s _ _ _ => some (s.reactor.vep,s.handle)
  | .streamPollWrite s _ _ _ => some (s.reactor.vep,s.handle)
  | .streamPollFlush s => some (s.reactor.vep,s.handle)
  | .streamPollShutdown s => some (s.reactor.vep,s.handle)
  | .dgramRecvFrom d _ => some (d.reactor.vep,d.handle)
  | .dgramTryRecvFrom d _ => some (d.reactor.vep,d.handle)
  | .dgramWaitReadable d => some (d.reactor.vep,d.handle)
  | .dgramSendTo d _ _ => some (d.reactor.vep,d.handle)
  | .dgramLocalAddr d => some (d.reactor.vep,d.handle)
  | _ => none

section Methods

open Fallible

variable {vep sh : Handle} {api : Api}

theorem method_lends (h : api.method = some (vep,sh)) : ∃ o ∈ api.lends, sh ∈ o.handles := by
  cases api <;> cases h
  all_goals
    exact ⟨_,Multiset.mem_singleton_self _,Multiset.mem_singleton_self _⟩

theorem method_calls [Platform] (h : api.method = some (vep,sh)) :
    ∃ (α : Type) (x : Vcl α), api.call = serving x ∧ x.Calls (Serves vep sh) := by
  cases api <;> cases h
  case listenerLocalAddr l => exact ⟨_,_,rfl,address_calls _⟩
  case streamRead s buf => exact ⟨_,_,rfl,read_calls s buf⟩
  case streamReadExact s buf => exact ⟨_,_,rfl,readExact_calls s buf⟩
  case streamWriteAll s buf => exact ⟨_,_,rfl,writeAll_calls s buf⟩
  case streamLocalAddr s => exact ⟨_,_,rfl,address_calls _⟩
  case streamPeerAddr s => exact ⟨_,_,rfl,address_calls _⟩
  case streamPollRead s pending cx unfilled => exact ⟨_,_,rfl,pollRead_calls s pending cx unfilled⟩
  case streamPollWrite s pending cx buf => exact ⟨_,_,rfl,pollWrite_calls s pending cx buf⟩
  case streamPollFlush s => exact ⟨_,_,rfl,calls_pure _⟩
  case streamPollShutdown s => exact ⟨_,_,rfl,pollShutdown_calls s⟩
  case dgramRecvFrom d buf => exact ⟨_,_,rfl,recvFrom_calls d buf⟩
  case dgramTryRecvFrom d buf => exact ⟨_,_,rfl,tryRecvFrom_calls d buf⟩
  case dgramWaitReadable d => exact ⟨_,_,rfl,swallow_calls ()⟩
  case dgramSendTo d buf dst => exact ⟨_,_,rfl,sendTo_calls d buf dst⟩
  case dgramLocalAddr d => exact ⟨_,_,rfl,address_calls _⟩

end Methods

end VclRs
