import VclRs.Streams.Reads
import VclRs.Streams.Writes

namespace VclRs

open Interaction Fallible

section Correspondence

inductive ReadMatch : Except Stop (ℕ × List UInt8) → Except IoError (List UInt8) → Prop
  | ok {n : ℕ} {filled : List UInt8} (hn : n ≠ 0) (hlen : (filled.take n).length = n) :
      ReadMatch (.ok (n,filled)) (.ok (filled.take n))
  | closed : ReadMatch (.error (.err .closed)) (.ok [])
  | failed {e : VclError} (he : e ≠ .closed) :
      ReadMatch (.error (.err e)) (.error (vclToIo e))

inductive WriteMatch : Except Stop Unit → Except IoError Unit → Prop
  | ok : WriteMatch (.ok ()) (.ok ())
  | failed (e : VclError) : WriteMatch (.error (.err e)) (.error (vclToIo e))

theorem read_corresponds {res : Except Stop (ℕ × List UInt8)} {d : Except VclError (List UInt8)}
    (h : ReadEnds res d) : ReadMatch res (toRead d) := by
  cases h with
  | ok hn hlen => exact .ok hn hlen
  | error e =>
    by_cases he : e = .closed
    · subst he
      exact .closed
    · rw [toRead,if_neg he]
      exact .failed he

theorem write_corresponds {res : Except Stop Unit} {d : Except VclError Unit}
    (h : WriteEnds res d) : WriteMatch res (toWrite d) := by
  cases h with
  | ok => exact .ok
  | error e => exact .failed e

variable [Platform]

theorem reads_agree (st : VclStream) {buf unfilled : List UInt8}
    (h : unfilled.length = buf.length) :
    Agrees (fun tr res => (st.read buf).Run tr res ∧ res ≠ .error .dropped)
      (DrivenRead st unfilled false) ReadMatch := by
  have hdriven : Follows (readPolicy unfilled.length) (.ask ()) (DrivenRead st unfilled false)
      (fun r d => r = toRead d) := driven_policy
  rw [h] at hdriven
  refine agrees_of_follows read_policy hdriven ?_
  rintro res _ d hends rfl
  exact read_corresponds hends

theorem writes_agree (st : VclStream) (out : List UInt8) :
    Agrees (fun tr res => (st.writeAll out).Run tr res ∧ res ≠ .error .dropped)
      (DrivenWrite st out 0 false) WriteMatch := by
  refine agrees_of_follows write_policy drivenWrite_policy ?_
  rintro res _ d hends rfl
  exact write_corresponds hends

theorem interfaces_agree (st : VclStream) (buf unfilled out : List UInt8)
    (h : unfilled.length = buf.length) :
    Agrees (fun tr res => (st.read buf).Run tr res ∧ res ≠ .error .dropped)
        (DrivenRead st unfilled false) ReadMatch ∧
      Agrees (fun tr res => (st.writeAll out).Run tr res ∧ res ≠ .error .dropped)
        (DrivenWrite st out 0 false) WriteMatch :=
  ⟨reads_agree st h,writes_agree st out⟩

end Correspondence

section Greeting

def greets : ℕ → (c : Call) → Reply c
  | 0, .sessionRead _ _ => ((-11 : Int),[])
  | _, .sessionRead _ _ => ((2 : Int),[104,105])
  | _, c => obliging c

theorem interfaces_agree_greeting : ∃ tr, @DrivenRead host ⟨3,⟨2⟩⟩ [9,9] false tr (.ok [104,105]) ∧
    script tr = [.io (-11) [],.wait (.ok ()),.io 2 [104,105]] := by
  let _ := host
  have hread : (VclStream.read ⟨3,⟨2⟩⟩ [0,0]).Run
      [⟨.sessionRead 3 2,((-11 : Int),[])⟩,⟨.waitersEntry 2 3,(0 : ℕ)⟩,⟨.instantNow,(0 : ℕ)⟩,
        ⟨.select 2 0 300000000000,((0 : ℕ),.notified)⟩,⟨.sessionRead 3 2,((2 : Int),[104,105])⟩]
      (.ok (2,[104,105])) :=
    Prog.exec_run (fun n o => (greets n o,n + 1)) 5 _ 0 5 _ _ rfl
  have hlaw : ∀ e ∈ ([⟨.sessionRead 3 2,((-11 : Int),[])⟩,⟨.waitersEntry 2 3,(0 : ℕ)⟩,
      ⟨.instantNow,(0 : ℕ)⟩,⟨.select 2 0 300000000000,((0 : ℕ),.notified)⟩,
      ⟨.sessionRead 3 2,((2 : Int),[104,105])⟩] : List Ev), Lawful e := by
    simp [Lawful,Within]
  obtain ⟨hagree,-⟩ := interfaces_agree ⟨3,⟨2⟩⟩ [0,0] [9,9] [] rfl
  obtain ⟨tr,r,hdriven,hl,hs⟩ := hagree.forward _ _ ⟨hread,by simp⟩ hlaw
  obtain ⟨-,-,hmatch⟩ := hagree.together _ _ tr r _ ⟨hread,by simp⟩ hlaw hdriven hl
    List.prefix_rfl (hs ▸ List.prefix_rfl)
  cases hmatch
  exact ⟨tr,hdriven,hs⟩

end Greeting

end VclRs
