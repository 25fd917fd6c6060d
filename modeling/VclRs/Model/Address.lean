import VclRs.Model.Error
import Mathlib.Data.Nat.Digits.Defs

namespace VclRs

abbrev Ipv4Addr := Vector UInt8 4
abbrev Ipv6Addr := Vector UInt8 16

inductive IpAddr where
  | v4 (octets : Ipv4Addr)
  | v6 (octets : Ipv6Addr)
deriving DecidableEq, Repr

inductive SocketAddr where
  | v4 (ip : Ipv4Addr) (port : UInt16)
  | v6 (ip : Ipv6Addr) (port : UInt16) (flowinfo scopeId : UInt32)
deriving DecidableEq, Repr

def IpAddr.isIpv4 : IpAddr → Bool
  | .v4 _ => true
  | .v6 _ => false

def IpAddr.unspecifiedV4 : IpAddr := .v4 (.replicate 4 0)
def IpAddr.unspecifiedV6 : IpAddr := .v6 (.replicate 16 0)

namespace SocketAddr

def new : IpAddr → UInt16 → SocketAddr
  | .v4 octets, port => .v4 octets port
  | .v6 octets, port => .v6 octets port 0 0

def ip : SocketAddr → IpAddr
  | .v4 octets _ => .v4 octets
  | .v6 octets _ _ _ => .v6 octets

def port : SocketAddr → UInt16
  | .v4 _ port => port
  | .v6 _ port _ _ => port

def isIpv4 (a : SocketAddr) : Bool := a.ip.isIpv4

end SocketAddr

structure Endpt where
  isIp4 : UInt8
  ip : Vector UInt8 16
  port : UInt16
deriving DecidableEq, Repr

def Endpt.default : Endpt := ⟨1,.replicate 16 0,0⟩

theorem swap_swap (p : UInt16) :
    (((p <<< 8) ||| (p >>> 8)) <<< 8) ||| (((p <<< 8) ||| (p >>> 8)) >>> 8) = p := by
  apply UInt16.toBitVec_inj.mp
  ext i hi
  have hout : p.toBitVec.getLsbD (8 + (8 + i)) = false := BitVec.getLsbD_of_ge _ _ (by omega)
  by_cases h : i < 8
  · have hin : 8 + i < 16 := by omega
    simp [h,hin,hout]
  · have hin : 8 + (i - 8) = i := by omega
    have hover : ¬8 + i < 16 := by omega
    have hlow : i - 8 < 8 := by omega
    simp [h,hin,hout,hover,hlow,BitVec.getLsbD_eq_getElem hi]

section Marshalling

variable [Platform]

def toBe (p : UInt16) : UInt16 :=
  match Platform.endian with
  | .big => p
  | .little => (p <<< 8) ||| (p >>> 8)

def fromBe (p : UInt16) : UInt16 := toBe p

def endpointIntoBuf (addr : SocketAddr) (ipBuf : Vector UInt8 16) : Endpt :=
  match addr.ip with
  | .v4 octets =>
    ⟨1,.ofFn (fun i => if h : i.val < 4 then octets.get ⟨i.val,h⟩ else ipBuf.get i),toBe addr.port⟩
  | .v6 octets => ⟨0,octets,toBe addr.port⟩

def addrFromEndpoint (ep : Endpt) : SocketAddr :=
  if ep.isIp4 ≠ 0 then
    .new (.v4 (.ofFn (fun i => ep.ip.get ⟨i.val,by omega⟩))) (fromBe ep.port)
  else .new (.v6 ep.ip) (fromBe ep.port)

theorem fromBe_toBe (p : UInt16) : fromBe (toBe p) = p := by
  unfold fromBe toBe
  cases Platform.endian with
  | big => rfl
  | little => exact swap_swap p

theorem addrFromEndpoint_endpointIntoBuf (ip : IpAddr) (port : UInt16) (buf : Vector UInt8 16) :
    addrFromEndpoint (endpointIntoBuf (.new ip port) buf) = .new ip port := by
  cases ip with
  | v4 octets =>
    have hip : Vector.ofFn (fun i : Fin 4 => (Vector.ofFn (fun j : Fin 16 =>
        if h : j.val < 4 then octets.get ⟨j.val,h⟩ else buf.get j)).get ⟨i.val,by omega⟩) =
        octets := by
      apply Vector.ext
      intro i hi
      rw [Vector.getElem_ofFn]
      change (Vector.ofFn _)[i] = _
      rw [Vector.getElem_ofFn]
      exact dif_pos hi
    simp only [addrFromEndpoint,endpointIntoBuf,SocketAddr.new,SocketAddr.ip,SocketAddr.port,
      fromBe_toBe,hip]
    rfl
  | v6 octets =>
    simp [addrFromEndpoint,endpointIntoBuf,SocketAddr.new,SocketAddr.ip,SocketAddr.port,
      fromBe_toBe]

end Marshalling

section Display

def dotted (octets : Ipv4Addr) : String :=
  ".".intercalate (octets.toList.map (fun b => toString b.toNat))

def segments (octets : Ipv6Addr) : List ℕ :=
  (List.range 8).map (fun i =>
    256 * (octets.toList.getD (2 * i) 0).toNat + (octets.toList.getD (2 * i + 1) 0).toNat)

def zeroRun : List ℕ → ℕ
  | 0 :: xs => zeroRun xs + 1
  | _ => 0

def longestRun (xs : List ℕ) : ℕ × ℕ :=
  (List.range xs.length).foldl (fun best i =>
    if best.2 < zeroRun (xs.drop i) then (i,zeroRun (xs.drop i)) else best) (0,0)

def hexGroups (xs : List ℕ) : String :=
  ":".intercalate (xs.map (fun n => String.ofList (Nat.toDigits 16 n)))

def Ipv6Addr.display (octets : Ipv6Addr) : String :=
  let groups := segments octets
  if groups.take 6 = [0,0,0,0,0,0xffff] then
    "::ffff:" ++ dotted (.ofFn (fun i => octets.get ⟨i.val + 12,by omega⟩))
  else
    let run := longestRun groups
    if 1 < run.2 then hexGroups (groups.take run.1) ++ "::" ++ hexGroups (groups.drop (run.1 + run.2))
    else hexGroups groups

def IpAddr.display : IpAddr → String
  | .v4 octets => dotted octets
  | .v6 octets => Ipv6Addr.display octets

def SocketAddr.display : SocketAddr → String
  | .v4 ip port => s!"{dotted ip}:{port.toNat}"
  | .v6 ip port _ scopeId =>
    let scope := if scopeId = 0 then "" else s!"%{scopeId.toNat}"
    "[" ++ Ipv6Addr.display ip ++ scope ++ "]:" ++ toString port.toNat

end Display

section Parsing

abbrev Parser (α : Type) := List Char → Option (α × List Char)

def digitVal (radix : ℕ) (c : Char) : Option ℕ :=
  let v := if c.isDigit then c.toNat - 48
    else if 'a' ≤ c ∧ c ≤ 'f' then c.toNat - 87
    else if 'A' ≤ c ∧ c ≤ 'F' then c.toNat - 55
    else radix
  if v < radix then some v else none

def digits (radix : ℕ) : List Char → List ℕ × List Char
  | [] => ([],[])
  | c :: cs =>
    match digitVal radix c with
    | none => ([],c :: cs)
    | some d => (d :: (digits radix cs).1,(digits radix cs).2)

def readNumber (radix : ℕ) (maxDigits : Option ℕ) (zeroPrefix : Bool) (bound : ℕ) : Parser ℕ :=
  fun cs =>
    let ds := (digits radix cs).1
    let n := Nat.ofDigits radix ds.reverse
    if ds = [] then none
    else if (maxDigits.map (fun m => decide (m < ds.length))).getD false then none
    else if bound < n then none
    else if !zeroPrefix && cs.head? == some '0' && decide (1 < ds.length) then none
    else some (n,(digits radix cs).2)

def readGivenChar (c : Char) : Parser Unit
  | [] => none
  | d :: cs => if d = c then some ((),cs) else none

def readSeparator {α : Type} (sep : Char) (index : ℕ) (inner : Parser α) : Parser α := fun cs =>
  if index = 0 then inner cs else (readGivenChar sep cs).bind (fun x => inner x.2)

def readIpv4Addr : Parser Ipv4Addr := fun cs => do
  let (a,cs) ← readNumber 10 (some 3) false 255 cs
  let (b,cs) ← readSeparator '.' 1 (readNumber 10 (some 3) false 255) cs
  let (c,cs) ← readSeparator '.' 2 (readNumber 10 (some 3) false 255) cs
  let (d,cs) ← readSeparator '.' 3 (readNumber 10 (some 3) false 255) cs
  some (#v[.ofNat a,.ofNat b,.ofNat c,.ofNat d],cs)

def readPort : Parser UInt16 := fun cs => do
  let (_,cs) ← readGivenChar ':' cs
  let (n,cs) ← readNumber 10 none true 65535 cs
  some (.ofNat n,cs)

def readSocketAddrV4 : Parser SocketAddr := fun cs => do
  let (ip,cs) ← readIpv4Addr cs
  let (port,cs) ← readPort cs
  some (.v4 ip port,cs)

def readGroups (limit : ℕ) : ℕ → ℕ → List Char → List ℕ × Bool × List Char
  | 0, _, cs => ([],false,cs)
  | n + 1, i, cs =>
    let embedded := if i + 1 < limit then readSeparator ':' i readIpv4Addr cs else none
    match embedded with
    | some (ip,cs') =>
      ([256 * (ip.get 0).toNat + (ip.get 1).toNat,256 * (ip.get 2).toNat + (ip.get 3).toNat],true,cs')
    | none =>
      match readSeparator ':' i (readNumber 16 (some 4) true 65535) cs with
      | none => ([],false,cs)
      | some (g,cs') =>
        let rest := readGroups limit n (i + 1) cs'
        (g :: rest.1,rest.2)

def ofGroups (groups : List ℕ) : Ipv6Addr :=
  .ofFn (fun i => .ofNat
    (if i.val % 2 = 0 then groups.getD (i.val / 2) 0 / 256 else groups.getD (i.val / 2) 0 % 256))

def readIpv6Addr : Parser Ipv6Addr := fun cs =>
  let front := readGroups 8 8 0 cs
  if front.1.length = 8 then some (ofGroups front.1,front.2.2)
  else if front.2.1 then none
  else do
    let (_,cs) ← readGivenChar ':' front.2.2
    let (_,cs) ← readGivenChar ':' cs
    let limit := 8 - (front.1.length + 1)
    let back := readGroups limit limit 0 cs
    let gap := List.replicate (8 - front.1.length - back.1.length) 0
    some (ofGroups (front.1 ++ gap ++ back.1),back.2.2)

def readScopeId : Parser UInt32 := fun cs => do
  let (_,cs) ← readGivenChar '%' cs
  let (n,cs) ← readNumber 10 none true 4294967295 cs
  some (.ofNat n,cs)

def readSocketAddrV6 : Parser SocketAddr := fun cs => do
  let (_,cs) ← readGivenChar '[' cs
  let (ip,cs) ← readIpv6Addr cs
  let (scopeId,cs) := (readScopeId cs).getD (0,cs)
  let (_,cs) ← readGivenChar ']' cs
  let (port,cs) ← readPort cs
  some (.v6 ip port 0 scopeId,cs)

def SocketAddr.parse (s : String) : Option SocketAddr :=
  let cs := s.toList
  match (readSocketAddrV4 cs).orElse (fun _ => readSocketAddrV6 cs) with
  | some (a,[]) => some a
  | _ => none

example : SocketAddr.parse "192.0.2.7:179" = some (.v4 #v[192,0,2,7] 179) := by decide

example : SocketAddr.parse "[2001:db8::1]:53" =
    some (.v6 #v[0x20,0x01,0x0d,0xb8,0,0,0,0,0,0,0,0,0,0,0,1] 53 0 0) := by decide

example : SocketAddr.parse ":::40000" = none := by decide

end Parsing

end VclRs
