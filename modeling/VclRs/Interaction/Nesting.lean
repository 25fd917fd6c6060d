import VclRs.Interaction.Contract
import Mathlib.Algebra.BigOperators.Group.Multiset.Basic

namespace Interaction

structure Nest (Op : Type) (Reply : Op → Type) (H : Type) where
  opens : Event Op Reply → Option H
  closes : Event Op Reply → Option H
  uses : Op → List H
  spans : Op → Option (H × H)
  apart : ∀ e, closes e = none ∨ opens e = none

namespace Nest

variable {Op : Type} {Reply : Op → Type} {H : Type} [DecidableEq H] (N : Nest Op Reply H)

def move (s : List H) (e : Event Op Reply) : List H :=
  (N.opens e).toList ++ (N.closes e).elim s s.erase

def discipline : Contract Op Reply (List H) where
  rely _ _ := True
  guar s e := (∀ h, N.closes e = some h → s.head? = some h) ∧ (∀ h ∈ N.uses e.op, h ∈ s) ∧
    ∀ x, N.spans e.op = some x → ∃ rest, s = x.1 :: rest ∧ x.2 ∈ rest
  next := N.move

def gains (tr : List (Event Op Reply)) : Multiset H := (tr.map (fun e => ↑(N.opens e).toList)).sum

def losses (tr : List (Event Op Reply)) : Multiset H := (tr.map (fun e => ↑(N.closes e).toList)).sum

variable {N} {s top rest : List H} {e : Event Op Reply} {tr : List (Event Op Reply)} {h h' : H}

theorem move_opening (he : N.closes e = none) : N.move s e = (N.opens e).toList ++ s := by
  rw [move,he]
  rfl

omit [DecidableEq H] in
theorem opens_closing (he : N.closes e = some h) : N.opens e = none := by
  rcases N.apart e with hnone | hnone
  · cases he.symm.trans hnone
  · exact hnone

theorem move_closing (he : N.closes e = some h) : N.move (h :: rest) e = rest := by
  rw [move,he,opens_closing he]
  exact List.erase_cons_head h rest

theorem guar_closing (hg : N.discipline.guar s e) (he : N.closes e = some h) :
    ∃ rest, s = h :: rest := by
  have hhead := hg.1 h he
  cases s with
  | nil => cases hhead
  | cons x rest =>
    cases hhead
    exact ⟨rest,rfl⟩

theorem balance (hk : N.discipline.Kept s tr) :
    (↑(N.discipline.after s tr) : Multiset H) + N.losses tr = ↑s + N.gains tr := by
  induction tr generalizing s with
  | nil => rfl
  | cons e tr ih =>
    have hrest := ih hk.2
    change _ = ↑(N.move s e) + N.gains tr at hrest
    rw [Contract.after_cons]
    change _ + (↑(N.closes e).toList + N.losses tr) = ↑s + (↑(N.opens e).toList + N.gains tr)
    rw [add_left_comm,hrest]
    cases hc : N.closes e with
    | none =>
      rw [move_opening hc,← Multiset.coe_add]
      change 0 + _ = _
      rw [zero_add]
      ac_rfl
    | some h =>
      obtain ⟨rest,rfl⟩ := guar_closing hk.1 hc
      rw [move_closing hc,opens_closing hc,← Multiset.cons_coe,← Multiset.singleton_add]
      change {h} + (↑rest + N.gains tr) = {h} + (↑rest : Multiset H) + (0 + N.gains tr)
      rw [zero_add,add_assoc]

theorem covered {pre : List (Event Op Reply)} (hk : N.discipline.Kept [] tr) (hp : pre <+: tr) :
    N.losses pre ≤ N.gains pre := by
  obtain ⟨post,rfl⟩ := hp
  have hb := balance ((N.discipline.kept_append [] pre post).mp hk).1
  rw [← Multiset.zero_add (N.gains pre)]
  change _ ≤ ↑([] : List H) + N.gains pre
  rw [← hb]
  exact Multiset.le_add_left _ _

theorem popped (hk : N.discipline.Kept (top ++ h :: rest) tr)
    (hend : N.discipline.after (top ++ h :: rest) tr = []) :
    ∃ pre e post, tr = pre ++ e :: post ∧ N.closes e = some h ∧ N.discipline.Kept rest post ∧
      N.discipline.after rest post = [] := by
  induction tr generalizing top with
  | nil => simp at hend
  | cons e tr ih =>
    obtain ⟨hg,hk⟩ := hk
    rw [Contract.after_cons] at hend
    change N.discipline.Kept (N.move (top ++ h :: rest) e) tr at hk
    change N.discipline.after (N.move (top ++ h :: rest) e) tr = [] at hend
    cases hc : N.closes e with
    | none =>
      rw [move_opening hc,← List.append_assoc] at hk hend
      obtain ⟨pre,x,post,rfl,hx⟩ := ih hk hend
      exact ⟨e :: pre,x,post,rfl,hx⟩
    | some c =>
      have hhead := hg.1 c hc
      cases top with
      | nil =>
        cases hhead
        rw [List.nil_append,move_closing hc] at hk hend
        exact ⟨[],e,tr,rfl,hc,hk,hend⟩
      | cons t top =>
        cases hhead
        rw [List.cons_append,move_closing hc] at hk hend
        obtain ⟨pre,x,post,rfl,hx⟩ := ih hk hend
        exact ⟨e :: pre,x,post,rfl,hx⟩

theorem popped_over (hk : N.discipline.Kept (h :: rest) tr)
    (hend : N.discipline.after (h :: rest) tr = []) (hrest : h' ∈ rest) :
    ∃ a x b y c, tr = a ++ x :: (b ++ y :: c) ∧ N.closes x = some h ∧ N.closes y = some h' := by
  have hkept : N.discipline.Kept ([] ++ h :: rest) tr := hk
  obtain ⟨pre,x,post,rfl,hx,hk,hend⟩ := popped hkept hend
  obtain ⟨above,below,rfl⟩ := List.append_of_mem hrest
  obtain ⟨b,y,c,rfl,hy,-,-⟩ := popped hk hend
  exact ⟨pre,x,b,y,c,rfl,hx,hy⟩

end Nest

end Interaction
