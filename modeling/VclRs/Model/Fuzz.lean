import VclRs.Model.Dns

namespace VclRs

inductive Panic where
  | assertion
  | outOfRange
deriving DecidableEq, Repr

namespace Fuzz

def require (c : Prop) [Decidable c] : Except Panic Unit := if c then .ok () else .error .assertion

def index (xs : List UInt8) (i : ℕ) : Except Panic UInt8 :=
  match xs[i]? with
  | some x => .ok x
  | none => .error .outOfRange

def sliceTo (xs : List UInt8) (n : ℕ) : Except Panic (List UInt8) :=
  if n ≤ xs.length then .ok (xs.take n) else .error .outOfRange

def sliceFrom (xs : List UInt8) (n : ℕ) : Except Panic (List UInt8) :=
  if n ≤ xs.length then .ok (xs.drop n) else .error .outOfRange

def lengthOrZero : Except VclError ℕ → UInt16
  | .ok n => .ofNat n
  | .error _ => 0

def outbound (data : List UInt8) : Except Panic Unit := do
  let q ← sliceTo data (min data.length (65535 + 16))
  match frameTcpDnsQuery q with
  | .ok framed =>
    require (q.length ≤ 65535)
    require (framed.length = 2 + q.length)
    let hi ← index framed 0
    let lo ← index framed 1
    require ((lengthOrZero (decodeTcpDnsLen hi lo)).toNat = q.length)
    let tail ← sliceFrom framed 2
    require (tail = q)
  | .error _ => require (65535 < q.length)

def inbound (data : List UInt8) : Except Panic (Option (List UInt8)) := do
  if data.length < 2 then return none
  let hi ← index data 0
  let lo ← index data 1
  let body ← sliceFrom data 2
  match decodeTcpDnsLen hi lo with
  | .ok len =>
    require (0 < len)
    require (len ≤ 65535)
    let carved ← sliceTo body (min len body.length)
    return some carved
  | .error _ =>
    require ([hi,lo] = [0,0])
    return none

end Fuzz

def fuzzTarget (data : List UInt8) : Except Panic Unit := do
  Fuzz.outbound data
  let _ ← Fuzz.inbound data
  return ()

end VclRs
