import VclRs.Model.Address

namespace VclRs

def SocketAddr.bare (a : SocketAddr) : SocketAddr := .new a.ip a.port

def SocketAddr.Plain : SocketAddr → Prop
  | .v4 _ _ => True
  | .v6 _ _ flowinfo scopeId => flowinfo = 0 ∧ scopeId = 0

def Endpt.address (ep : Endpt) : List UInt8 :=
  if ep.isIp4 ≠ 0 then ep.ip.toList.take 4 else ep.ip.toList

def Endpt.seen (ep : Endpt) : UInt8 × UInt16 × List UInt8 := (ep.isIp4,ep.port,ep.address)

theorem bare_eq_iff (a : SocketAddr) : a.bare = a ↔ a.Plain := by
  cases a with
  | v4 ip port => simp [SocketAddr.bare,SocketAddr.new,SocketAddr.ip,SocketAddr.port,SocketAddr.Plain]
  | v6 ip port flowinfo scopeId =>
    simp [SocketAddr.bare,SocketAddr.new,SocketAddr.ip,SocketAddr.port,SocketAddr.Plain,eq_comm]

section Marshalling

variable [Platform]

theorem toBe_injective {p q : UInt16} (h : toBe p = toBe q) : p = q := by
  have hback := congrArg fromBe h
  rw [fromBe_toBe,fromBe_toBe] at hback
  exact hback

theorem endpointIntoBuf_bare (a : SocketAddr) (buf : Vector UInt8 16) :
    endpointIntoBuf a.bare buf = endpointIntoBuf a buf := by
  cases a <;> rfl

theorem decode_encode (a : SocketAddr) (buf : Vector UInt8 16) :
    addrFromEndpoint (endpointIntoBuf a buf) = a.bare := by
  rw [← endpointIntoBuf_bare]
  exact addrFromEndpoint_endpointIntoBuf a.ip a.port buf

theorem seen_v4 (octets : Ipv4Addr) (port : UInt16) (buf : Vector UInt8 16) :
    (endpointIntoBuf (.v4 octets port) buf).seen = (1,toBe port,octets.toList) := by
  have haddress : (Vector.ofFn (fun i : Fin 16 => if h : i.val < 4 then octets.get ⟨i.val,h⟩
      else buf.get i)).toList.take 4 = octets.toList := by
    apply List.ext_getElem
    · simp
    · intro i hi hi'
      have hlt : i < 4 := by simpa using hi'
      simp [hlt]
      rfl
  have hread : (endpointIntoBuf (.v4 octets port) buf).address = octets.toList := by
    rw [Endpt.address,if_pos (by simp [endpointIntoBuf,SocketAddr.ip])]
    exact haddress
  rw [Endpt.seen,hread]
  rfl

theorem seen_v6 (octets : Ipv6Addr) (port : UInt16) (flowinfo scopeId : UInt32)
    (buf : Vector UInt8 16) :
    (endpointIntoBuf (.v6 octets port flowinfo scopeId) buf).seen = (0,toBe port,octets.toList) := by
  simp [Endpt.seen,endpointIntoBuf,SocketAddr.ip,SocketAddr.port,Endpt.address]

theorem seen_eq_iff (a b : SocketAddr) (buf buf' : Vector UInt8 16) :
    (endpointIntoBuf a buf).seen = (endpointIntoBuf b buf').seen ↔ a.ip = b.ip ∧ a.port = b.port := by
  have hport (p q : UInt16) : toBe p = toBe q ↔ p = q := ⟨toBe_injective,congrArg toBe⟩
  cases a <;> cases b <;>
    simp [seen_v4,seen_v6,SocketAddr.ip,SocketAddr.port,hport,and_comm,Vector.toList_inj]

theorem encode_decode (ep : Endpt) : endpointIntoBuf (addrFromEndpoint ep) ep.ip =
    ⟨if ep.isIp4 ≠ 0 then 1 else 0,ep.ip,ep.port⟩ := by
  have hport : toBe (fromBe ep.port) = ep.port := fromBe_toBe ep.port
  by_cases h : ep.isIp4 ≠ 0
  · have hip : Vector.ofFn (fun i : Fin 16 => if h : i.val < 4 then
        (Vector.ofFn (fun j : Fin 4 => ep.ip.get ⟨j.val,by omega⟩)).get ⟨i.val,h⟩
        else ep.ip.get i) = ep.ip := by
      apply Vector.ext
      intro i hi
      rw [Vector.getElem_ofFn]
      split
      · next hlt => exact Vector.getElem_ofFn _
      · rfl
    rw [addrFromEndpoint,if_pos h,if_pos h]
    change (⟨1,Vector.ofFn _,toBe (fromBe ep.port)⟩ : Endpt) = _
    rw [hport]
    exact congrArg (fun ip => (⟨1,ip,ep.port⟩ : Endpt)) hip
  · rw [addrFromEndpoint,if_neg h,if_neg h]
    change (⟨0,ep.ip,toBe (fromBe ep.port)⟩ : Endpt) = _
    rw [hport]

structure Lossless : Prop where
  decodes : ∀ a buf, addrFromEndpoint (endpointIntoBuf a buf) = a.bare
  verbatim : ∀ a buf, addrFromEndpoint (endpointIntoBuf a buf) = a ↔ a.Plain
  separates : ∀ a b buf buf', (endpointIntoBuf a buf).seen = (endpointIntoBuf b buf').seen ↔
    a.ip = b.ip ∧ a.port = b.port
  encodes : ∀ ep, endpointIntoBuf (addrFromEndpoint ep) ep.ip =
    ⟨if ep.isIp4 ≠ 0 then 1 else 0,ep.ip,ep.port⟩

theorem marshalling_lossless : Lossless := by
  constructor
  · exact decode_encode
  · intro a buf
    rw [decode_encode]
    exact bare_eq_iff a
  · exact seen_eq_iff
  · exact encode_decode

end Marshalling

end VclRs
