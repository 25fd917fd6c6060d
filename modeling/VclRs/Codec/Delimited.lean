import Mathlib.Data.List.Basic

namespace Codec

structure Delimited (α β : Type) where
  encode : α → List β
  next : List β → Option (α × List β)
  next_nil : next [] = none
  next_encode (a : α) (rest : List β) : next (encode a ++ rest) = some (a,rest)

namespace Delimited

variable {α β : Type} (D : Delimited α β)

def wire (as : List α) : List β := as.flatMap D.encode

def collect : ℕ → List β → List α × List β
  | 0, bs => ([],bs)
  | n + 1, bs =>
    match D.next bs with
    | none => ([],bs)
    | some (a,rest) => ((collect n rest).1.cons a,(collect n rest).2)

def decode (bs : List β) : List α × List β := D.collect bs.length bs

theorem encode_ne_nil (a : α) : D.encode a ≠ [] := by
  intro h
  have hn := D.next_encode a []
  rw [h,List.append_nil,D.next_nil] at hn
  cases hn

theorem length_wire (as : List α) : as.length ≤ (D.wire as).length := by
  induction as with
  | nil => exact Nat.le_refl 0
  | cons a as ih =>
    have ha := List.length_pos_of_ne_nil (D.encode_ne_nil a)
    rw [wire,List.flatMap_cons,List.length_append,List.length_cons]
    rw [wire] at ih
    omega

theorem collect_wire (as : List α) {n : ℕ} (h : as.length ≤ n) :
    D.collect n (D.wire as) = (as,[]) := by
  induction as generalizing n with
  | nil =>
    cases n with
    | zero => rfl
    | succ n => simp only [wire,List.flatMap_nil,collect,D.next_nil]
  | cons a as ih =>
    cases n with
    | zero => cases h
    | succ n =>
      have hrest := ih (Nat.le_of_succ_le_succ h)
      simp only [wire] at hrest
      simp only [wire,List.flatMap_cons,collect,D.next_encode,hrest]

theorem decode_wire (as : List α) : D.decode (D.wire as) = (as,[]) :=
  D.collect_wire as (D.length_wire as)

theorem wire_injective : Function.Injective D.wire := by
  intro as bs h
  have ha := D.decode_wire as
  rw [h,D.decode_wire bs] at ha
  exact (congrArg Prod.fst ha).symm

end Delimited

end Codec
