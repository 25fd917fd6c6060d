import VclRs.Codec.Delimited
import VclRs.Model.Dns

namespace VclRs

open Interaction Codec

theorem fromBeBytes_bound (hi lo : UInt8) : fromBeBytes hi lo ≤ 65535 := by
  have hh := hi.toNat_lt
  have hl := lo.toNat_lt
  rw [fromBeBytes]
  omega

theorem toBeBytes_fromBeBytes (hi lo : UInt8) : toBeBytes (fromBeBytes hi lo) = [hi,lo] := by
  have hl := lo.toNat_lt
  have hdiv : fromBeBytes hi lo / 256 = hi.toNat := by
    rw [fromBeBytes]
    omega
  have hmod : fromBeBytes hi lo % 256 = lo.toNat := by
    rw [fromBeBytes]
    omega
  rw [toBeBytes,hdiv,hmod,UInt8.ofNat_toNat,UInt8.ofNat_toNat]

theorem fromBeBytes_toBeBytes {n : ℕ} (h : n ≤ 65535) :
    fromBeBytes (.ofNat (n / 256)) (.ofNat (n % 256)) = n := by
  have hhi : (UInt8.ofNat (n / 256)).toNat = n / 256 := UInt8.toNat_ofNat_of_lt' (by
    rw [UInt8.size]
    omega)
  have hlo : (UInt8.ofNat (n % 256)).toNat = n % 256 := UInt8.toNat_ofNat_of_lt' (by
    rw [UInt8.size]
    omega)
  rw [fromBeBytes,hhi,hlo]
  omega

theorem decodeTcpDnsLen_range {hi lo : UInt8} {len : ℕ} (h : decodeTcpDnsLen hi lo = .ok len) :
    0 < len ∧ len ≤ 65535 := by
  rw [decodeTcpDnsLen] at h
  split_ifs at h with hz
  cases h
  exact ⟨Nat.pos_of_ne_zero hz,fromBeBytes_bound hi lo⟩

structure Message where
  bytes : List UInt8
  nonempty : bytes ≠ []
  bound : bytes.length ≤ 65535

namespace Message

def frame (m : Message) : List UInt8 := toBeBytes m.bytes.length ++ m.bytes

def body (len : ℕ) (rest : List UInt8) (hlen : 0 < len ∧ len ≤ 65535) (hr : len ≤ rest.length) :
    Message where
  bytes := rest.take len
  nonempty := by
    intro h
    have hl := congrArg List.length h
    rw [List.length_take,List.length_nil] at hl
    omega
  bound := by
    rw [List.length_take]
    omega

def take : List UInt8 → Option (Message × List UInt8)
  | hi :: lo :: rest =>
    match h : decodeTcpDnsLen hi lo with
    | .error _ => none
    | .ok len =>
      if hr : len ≤ rest.length then
        some (body len rest (decodeTcpDnsLen_range h) hr,rest.drop len)
      else none
  | _ => none

theorem decode_frame (m : Message) :
    decodeTcpDnsLen (.ofNat (m.bytes.length / 256)) (.ofNat (m.bytes.length % 256)) =
      .ok m.bytes.length := by
  have hpos := List.length_pos_of_ne_nil m.nonempty
  rw [decodeTcpDnsLen,fromBeBytes_toBeBytes m.bound,if_neg (by omega)]

theorem take_frame (m : Message) (rest : List UInt8) : take (m.frame ++ rest) = some (m,rest) := by
  have hl : m.bytes.length ≤ (m.bytes ++ rest).length := by
    rw [List.length_append]
    omega
  simp only [frame,toBeBytes,List.cons_append,List.nil_append,take]
  split
  · next h => cases h.symm.trans m.decode_frame
  · next len h =>
    cases h.symm.trans m.decode_frame
    simp only [dif_pos hl,body,List.take_left,List.drop_left]

end Message

def dnsFraming : Delimited Message UInt8 where
  encode := Message.frame
  next := Message.take
  next_nil := rfl
  next_encode := Message.take_frame

def frames (ms : List Message) : Except VclError (List UInt8) :=
  (ms.mapM (fun m => frameTcpDnsQuery m.bytes)).map List.flatten

theorem frames_wire (ms : List Message) : frames ms = .ok (dnsFraming.wire ms) := by
  induction ms with
  | nil => rfl
  | cons m ms ih =>
    have hm : frameTcpDnsQuery m.bytes = .ok m.frame := if_pos m.bound
    rw [frames] at ih ⊢
    rw [List.mapM_cons,hm]
    cases hms : ms.mapM (fun m => frameTcpDnsQuery m.bytes) with
    | error e =>
      rw [hms] at ih
      cases ih
    | ok fs =>
      rw [hms] at ih
      have hfs : fs.flatten = dnsFraming.wire ms := Except.ok.inj ih
      change Except.ok (m.frame ++ fs.flatten) = _
      rw [hfs]
      rfl

def Framed (q framed : List UInt8) : Prop :=
  ∃ hi lo, framed = hi :: lo :: q ∧ (q ≠ [] → decodeTcpDnsLen hi lo = .ok q.length) ∧
    (q = [] → ∃ e, decodeTcpDnsLen hi lo = .error e)

theorem frameTcpDnsQuery_framed {q : List UInt8} (h : q.length ≤ 65535) :
    ∃ framed, frameTcpDnsQuery q = .ok framed ∧ Framed q framed := by
  refine ⟨_,if_pos h,_,_,rfl,?_,?_⟩
  · intro hq
    exact Message.decode_frame ⟨q,hq,h⟩
  · rintro rfl
    exact ⟨_,rfl⟩

theorem frameTcpDnsQuery_refused {q : List UInt8} (h : ¬q.length ≤ 65535) :
    ∃ e, frameTcpDnsQuery q = .error e := ⟨_,if_neg h⟩

theorem tcpDnsFraming_exact :
    (∀ q : List UInt8, (∃ framed, frameTcpDnsQuery q = .ok framed) ↔ q.length ≤ 65535) ∧
      (∀ q framed, frameTcpDnsQuery q = .ok framed → Framed q framed) ∧
      (∀ ms : List Message, ∃ bytes, frames ms = .ok bytes ∧
        dnsFraming.decode bytes = (ms,[])) ∧
      Function.Injective frames := by
  refine ⟨?_,?_,?_,?_⟩
  · intro q
    constructor
    · rintro ⟨framed,hf⟩
      by_contra hq
      obtain ⟨e,he⟩ := frameTcpDnsQuery_refused hq
      cases he.symm.trans hf
    · intro hq
      obtain ⟨framed,hf,-⟩ := frameTcpDnsQuery_framed hq
      exact ⟨framed,hf⟩
  · intro q framed hf
    by_cases hq : q.length ≤ 65535
    · obtain ⟨framed',hf',hx⟩ := frameTcpDnsQuery_framed hq
      cases hf'.symm.trans hf
      exact hx
    · obtain ⟨e,he⟩ := frameTcpDnsQuery_refused hq
      cases he.symm.trans hf
  · intro ms
    exact ⟨_,frames_wire ms,dnsFraming.decode_wire ms⟩
  · intro ms ms' h
    rw [frames_wire,frames_wire] at h
    exact dnsFraming.wire_injective (Except.ok.inj h)

theorem tcpDnsFraming_exact_pair :
    frameTcpDnsQuery [1,2,3] = .ok [0,3,1,2,3] ∧ Framed [1,2,3] [0,3,1,2,3] :=
  ⟨rfl,tcpDnsFraming_exact.2.1 _ _ rfl⟩

end VclRs
