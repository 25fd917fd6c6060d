import VclRs.Interaction.Contract
import Mathlib.Algebra.Order.Group.Multiset
import Mathlib.Algebra.BigOperators.Group.Multiset.Basic

namespace Interaction

structure Ledger (Op : Type) (Reply : Op → Type) (τ H : Type) where
  rely : Event Op Reply → Prop
  move : τ → Event Op Reply → τ
  gain : τ → Event Op Reply → Multiset H
  loss : τ → Event Op Reply → Multiset H
  uses : τ → Event Op Reply → H → Prop
  lent : τ → H → Prop

structure Holding (τ H : Type) where
  site : τ
  owed : Multiset H

namespace Ledger

variable {Op : Type} {Reply : Op → Type} {τ H : Type} [DecidableEq H] (L : Ledger Op Reply τ H)

def May (s : Holding τ H) (h : H) : Prop := h ∈ s.owed ∨ L.lent s.site h

def contract : Contract Op Reply (Holding τ H) where
  rely _ e := L.rely e
  guar s e := L.loss s.site e ≤ s.owed ∧ ∀ h, L.uses s.site e h → L.May s h
  next s e := ⟨L.move s.site e,s.owed - L.loss s.site e + L.gain s.site e⟩

def gains : τ → List (Event Op Reply) → Multiset H
  | _, [] => 0
  | t, e :: tr => L.gain t e + gains (L.move t e) tr

def losses : τ → List (Event Op Reply) → Multiset H
  | _, [] => 0
  | t, e :: tr => L.loss t e + losses (L.move t e) tr

omit [DecidableEq H] in
theorem gains_const {g : Event Op Reply → Multiset H} (hg : ∀ t e, L.gain t e = g e) (t : τ)
    (tr : List (Event Op Reply)) : L.gains t tr = (tr.map g).sum := by
  induction tr generalizing t with
  | nil => rfl
  | cons e tr ih => rw [gains,hg,ih,List.map_cons,List.sum_cons]

omit [DecidableEq H] in
theorem losses_const {g : Event Op Reply → Multiset H} (hg : ∀ t e, L.loss t e = g e) (t : τ)
    (tr : List (Event Op Reply)) : L.losses t tr = (tr.map g).sum := by
  induction tr generalizing t with
  | nil => rfl
  | cons e tr ih => rw [losses,hg,ih,List.map_cons,List.sum_cons]

theorem balance {s : Holding τ H} {tr : List (Event Op Reply)} (h : L.contract.Kept s tr) :
    (L.contract.after s tr).owed + L.losses s.site tr = s.owed + L.gains s.site tr := by
  induction tr generalizing s with
  | nil => rfl
  | cons e tr ih =>
    obtain ⟨⟨hle,-⟩,hk⟩ := h
    have hi : (L.contract.after (L.contract.next s e) tr).owed + L.losses (L.move s.site e) tr =
        s.owed - L.loss s.site e + L.gain s.site e + L.gains (L.move s.site e) tr := ih hk
    have hc : s.owed - L.loss s.site e + L.loss s.site e = s.owed := tsub_add_cancel_of_le hle
    rw [Contract.after_cons,losses,gains,add_left_comm,hi]
    calc L.loss s.site e + (s.owed - L.loss s.site e + L.gain s.site e + L.gains (L.move s.site e) tr)
        = s.owed - L.loss s.site e + L.loss s.site e
          + (L.gain s.site e + L.gains (L.move s.site e) tr) := by ac_rfl
      _ = s.owed + (L.gain s.site e + L.gains (L.move s.site e) tr) := by rw [hc]

theorem covered {s : Holding τ H} {tr pre : List (Event Op Reply)} (h : L.contract.Kept s tr)
    (hp : pre <+: tr) : L.losses s.site pre ≤ s.owed + L.gains s.site pre := by
  obtain ⟨post,rfl⟩ := hp
  have hb := L.balance ((L.contract.kept_append s pre post).mp h).1
  rw [← hb]
  exact Multiset.le_add_left _ _

end Ledger

end Interaction
