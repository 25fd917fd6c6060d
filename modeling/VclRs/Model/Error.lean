import Mathlib.Data.Nat.Notation
import Mathlib.Tactic.SplitIfs

namespace VclRs

inductive Endian where
  | little
  | big
deriving DecidableEq, Repr

class Platform where
  endian : Endian
  retvalStr : Int → Option String

inductive ErrorKind where
  | unexpectedEof
  | wouldBlock
  | other
  | os (code : Int)
deriving DecidableEq, Repr

structure IoError where
  kind : ErrorKind
  message : String
deriving DecidableEq, Repr

inductive VclError where
  | api (message : String) (rc : Int)
  | io (e : IoError)
  | closed
  | notConnected
  | wouldBlock
  | timeout
deriving DecidableEq, Repr

def epipe : Int := 32
def ewouldblock : Int := 11
def eagain : Int := 11
def econnreset : Int := 104
def enotconn : Int := 107
def einprogress : Int := 115

section Codes

variable [Platform]

def vclRetvalStr (rc : Int) : String :=
  match Platform.retvalStr rc with
  | none => s!"unknown error {rc}"
  | some message => message

def fromRc (rc : Int) : VclError :=
  if rc = -ewouldblock ∨ rc = -eagain ∨ rc = -einprogress then .wouldBlock
  else if rc = -enotconn then .notConnected
  else if rc = -econnreset ∨ rc = -epipe then .closed
  else .api (vclRetvalStr rc) rc

theorem fromRc_wouldBlock_iff (rc : Int) : fromRc rc = .wouldBlock ↔ rc = -11 ∨ rc = -115 := by
  unfold fromRc ewouldblock eagain einprogress
  split_ifs <;> simp_all

theorem fromRc_ne_timeout (rc : Int) : fromRc rc ≠ .timeout := by
  unfold fromRc
  split_ifs <;> simp

example : (fromRc (-11),fromRc (-107),fromRc (-104),fromRc (-32)) =
    (.wouldBlock,.notConnected,.closed,.closed) := rfl

end Codes

namespace VclError

def transient (e : VclError) : Prop := e = .wouldBlock ∨ e = .notConnected

instance (e : VclError) : Decidable e.transient := inferInstanceAs (Decidable (_ ∨ _))

def display : VclError → String
  | .api message rc => s!"VCL call failed: {message} (rc={rc})"
  | .io e => s!"I/O error: {e.message}"
  | .closed => "session closed"
  | .notConnected => "not connected"
  | .wouldBlock => "would block"
  | .timeout => "timed out"

def debug : VclError → String
  | .api message rc => s!"Api({message.quote}, {rc})"
  | .io e => s!"Io({e.message.quote})"
  | .closed => "Closed"
  | .notConnected => "NotConnected"
  | .wouldBlock => "WouldBlock"
  | .timeout => "Timeout"

end VclError

inductive Stop where
  | err (e : VclError)
  | dropped
deriving DecidableEq, Repr

end VclRs
