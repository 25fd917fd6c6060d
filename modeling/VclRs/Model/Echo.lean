import VclRs.Model.Dgram

namespace VclRs

open Interaction

section Main

variable [Platform]

def echoName : List UInt8 := "vcl-rs-udp-echo".toList.map Char.toUInt8

def echoLoop (sock : VclDgramSocket) : Vcl Empty :=
  Fallible.loop (fun (buf : List UInt8) => do
    let ((n,peer),buf) ← sock.recvFrom buf
    let _ ← sock.sendTo (buf.take n) peer
    pure (.inl buf)) (List.replicate 65535 0)

def echoMain (bindAddr : SocketAddr) : Vcl Empty := do
  let _ ← VclApp.init echoName
  (do
    let reactor ← VclReactor.new
    let sock ← VclDgramSocket.bind bindAddr reactor
    (echoLoop sock).ensuring sock.drop).ensuring VclApp.drop

end Main

end VclRs
