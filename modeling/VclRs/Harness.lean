import VclRs.Model.Fuzz
import VclRs.Exchange

namespace VclRs

open Interaction

namespace Fuzz

variable {data q body : List UInt8} {hi lo : UInt8} {len n : ℕ}

theorem ok_bind {α β : Type} (a : α) (f : α → Except Panic β) : (Except.ok a >>= f) = f a := rfl

theorem require_ok {c : Prop} [Decidable c] (h : c) : require c = .ok () := if_pos h

theorem index_first : index (hi :: lo :: body) 0 = .ok hi := rfl

theorem index_second : index (hi :: lo :: body) 1 = .ok lo := rfl

theorem sliceFrom_second : sliceFrom (hi :: lo :: body) 2 = .ok body := if_pos (by simp)

theorem sliceTo_min : sliceTo data (min n data.length) = .ok (data.take n) := by
  rw [sliceTo,if_pos (Nat.min_le_right ..)]
  simp

theorem decode_refuses {e : VclError} (h : decodeTcpDnsLen hi lo = .error e) : [hi,lo] = [0,0] := by
  rw [decodeTcpDnsLen] at h
  split_ifs at h with hzero
  rw [← toBeBytes_fromBeBytes,hzero]
  rfl

theorem lengthOrZero_framed (hq : q.length ≤ 65535)
    (hdecode : q ≠ [] → decodeTcpDnsLen hi lo = .ok q.length)
    (hrefuse : q = [] → ∃ e, decodeTcpDnsLen hi lo = .error e) :
    (lengthOrZero (decodeTcpDnsLen hi lo)).toNat = q.length := by
  by_cases hnil : q = []
  · obtain ⟨e,he⟩ := hrefuse hnil
    rw [he,hnil]
    rfl
  · rw [hdecode hnil]
    change (UInt16.ofNat q.length).toNat = q.length
    rw [UInt16.toNat_ofNat']
    omega

theorem outbound_ok (data : List UInt8) : outbound data = .ok () := by
  rw [outbound,Nat.min_comm,sliceTo_min]
  generalize data.take (65535 + 16) = q
  rw [ok_bind]
  by_cases hq : q.length ≤ 65535
  · obtain ⟨framed,hframed,hi,lo,rfl,hdecode,hrefuse⟩ := frameTcpDnsQuery_framed hq
    have hlen := lengthOrZero_framed hq hdecode hrefuse
    have htotal : (hi :: lo :: q).length = 2 + q.length := by
      simp only [List.length_cons]
      omega
    simp only [hframed,require_ok hq,require_ok htotal,index_first,index_second,require_ok hlen,
      sliceFrom_second,ok_bind]
    exact require_ok trivial
  · obtain ⟨e,he⟩ := frameTcpDnsQuery_refused hq
    rw [he]
    exact require_ok (Nat.lt_of_not_le hq)

theorem inbound_accepts (h : decodeTcpDnsLen hi lo = .ok len) :
    inbound (hi :: lo :: body) = .ok (some (body.take len)) := by
  obtain ⟨hpos,hmax⟩ := decodeTcpDnsLen_range h
  have hlong : ¬ (hi :: lo :: body).length < 2 := by simp
  simp only [inbound,if_neg hlong,index_first,index_second,sliceFrom_second,h,require_ok hpos,
    require_ok hmax,sliceTo_min,ok_bind]
  rfl

theorem inbound_refuses {e : VclError} (h : decodeTcpDnsLen hi lo = .error e) :
    inbound (hi :: lo :: body) = .ok none := by
  have hlong : ¬ (hi :: lo :: body).length < 2 := by simp
  simp only [inbound,if_neg hlong,index_first,index_second,sliceFrom_second,h,
    require_ok (decode_refuses h),ok_bind]
  rfl

theorem inbound_total (data : List UInt8) : ∃ carved, inbound data = .ok carved := by
  rcases data with - | ⟨hi,- | ⟨lo,body⟩⟩
  · exact ⟨none,rfl⟩
  · exact ⟨none,rfl⟩
  · cases h : decodeTcpDnsLen hi lo with
    | ok len => exact ⟨_,inbound_accepts h⟩
    | error e => exact ⟨_,inbound_refuses h⟩

theorem inbound_framed {resp rest : List UInt8} (hpos : 1 ≤ resp.length) (hmax : resp.length ≤ 65535) :
    inbound (toBeBytes resp.length ++ resp ++ rest) = .ok (some resp) := by
  have hdecode := Message.decode_frame ⟨resp,List.ne_nil_of_length_pos hpos,hmax⟩
  have hcarved : inbound (toBeBytes resp.length ++ resp ++ rest) =
    .ok (some ((resp ++ rest).take resp.length)) := inbound_accepts hdecode
  rw [hcarved,List.take_left]

end Fuzz

section Mirror

variable [Platform]

theorem fuzz_mirrors (data : List UInt8) : fuzzTarget data = .ok () ∧
    ∀ (t : Transport) (peer : SocketAddr) (source : Option IpAddr) (query : List UInt8) (r : VclReactor)
      (timeout : Duration) (tr : List Ev) (resp : List UInt8),
      (queryTcpDns t peer source query r timeout).Run tr (.ok resp) →
      wire.Relied ⟨[],data,[]⟩ tr → Fuzz.inbound data = .ok (some resp) := by
  constructor
  · obtain ⟨carved,hcarved⟩ := Fuzz.inbound_total data
    rw [fuzzTarget,Fuzz.outbound_ok,Fuzz.ok_bind,hcarved]
    rfl
  · intro t peer source query r timeout tr resp hrun hvcl
    obtain ⟨-,-,hpos,hmax,hdata,-⟩ := queryTcpDns_exchanged hrun hvcl
    rw [hdata]
    exact Fuzz.inbound_framed hpos hmax

end Mirror

theorem fuzz_mirrors_chunked : ∃ tr,
    (@queryTcpDns host .sync (.new .unspecifiedV4 53) none [1,2] ⟨9⟩ 5).Run tr (.ok [7,8]) ∧
      wire.Relied ⟨[],[0,2,7,8,9],[]⟩ tr ∧ Fuzz.inbound [0,2,7,8,9] = .ok (some [7,8]) := by
  obtain ⟨r,tr,hrun,rfl,hvcl⟩ := Fallible.exec_sat
    (x := @queryTcpDns host .sync (.new .unspecifiedV4 53) none [1,2] ⟨9⟩ 5)
    (P := fun r tr => r = .ok [7,8] ∧ wire.Relied ⟨[],[0,2,7,8,9],[]⟩ tr) chunked 10
    (by decide +kernel)
  exact ⟨tr,hrun,hvcl,(@fuzz_mirrors host _).2 _ _ _ _ _ _ _ _ hrun hvcl⟩

end VclRs
