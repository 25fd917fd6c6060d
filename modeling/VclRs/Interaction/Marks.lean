import VclRs.Interaction.Pool
import Mathlib.Data.Finset.Basic

namespace Interaction

inductive Mark (H : Type) where
  | set (h : H)
  | unset (h : H)
  | keep
deriving DecidableEq, Repr

section Recording

variable {E H : Type} [DecidableEq H]

def Mark.apply (w : Finset H) : Mark H → Finset H
  | .set h => insert h w
  | .unset h => w.erase h
  | .keep => w

theorem Mark.mem_apply {m : Mark H} {w : Finset H} {h : H} :
    h ∈ m.apply w ↔ m = .set h ∨ h ∈ w ∧ m ≠ .unset h := by
  cases m with
  | set x => simp [apply,eq_comm]
  | unset x => simp [apply,and_comm,eq_comm]
  | keep => simp [apply]

def recorded (mark : E → Mark H) (tr : List E) : Finset H :=
  tr.foldl (fun w e => (mark e).apply w) ∅

theorem recorded_concat (mark : E → Mark H) (tr : List E) (e : E) :
    recorded mark (tr ++ [e]) = (mark e).apply (recorded mark tr) := by
  simp [recorded,List.foldl_append]

end Recording

namespace Accord

variable {Op : Type} {Reply : Op → Type} {Kind Obj σ H : Type}
variable {S : System Op Reply Kind Obj}

structure Watch (A : Accord S σ) (H : Type) where
  mark : Event Op Reply → Mark H
  mine : σ → H → Prop
  theirs : Obj → H → Prop
  start : ∀ k, S.opens k → ∀ o ∈ S.takes k, ∀ h, theirs o h → mine (A.init k) h
  sets : ∀ k s e h, (A.contract k).guar s e → mark e = .set h →
    mine ((A.contract k).next s e) h ∨ ∃ o ∈ S.lends k, theirs o h
  keeps : ∀ k s e h, (A.contract k).guar s e → mark e ≠ .unset h → mine s h →
    mine ((A.contract k).next s e) h
  finish : ∀ k os s h, A.post k os s → mine s h → ∃ o ∈ os, theirs o h

namespace Watch

variable {A : Accord S σ} (W : Watch A H)

def Accounts (p : Pool Op Reply Kind Obj) (h : H) : Prop :=
  (∃ t ∈ p.tasks, W.mine (A.ghost t) h) ∨ ∃ o ∈ p.objects, W.theirs o h

variable {W} {tasks : Multiset (Task Op Reply Kind Obj)} {objs : Multiset Obj}
variable {log : List (Record Op Reply Kind)} {k : Kind} {past : List (Event Op Reply)}
variable {p q : Prog Op Reply (Multiset Obj)} {h : H}

theorem accounts_start {rest : Multiset Obj} (hk : S.opens k)
    (ha : W.Accounts ⟨tasks,S.takes k + rest,log⟩ h) :
    W.Accounts ⟨⟨k,[],S.code k⟩ ::ₘ tasks,rest,log⟩ h := by
  rcases ha with ⟨t,ht,hm⟩ | ⟨o,ho,hm⟩
  · exact .inl ⟨t,Multiset.mem_cons_of_mem ht,hm⟩
  · rcases Multiset.mem_add.mp ho with ho | ho
    · exact .inl ⟨_,Multiset.mem_cons_self _ _,W.start k hk o ho h hm⟩
    · exact .inr ⟨o,ho,hm⟩

theorem accounts_finish {os : Multiset Obj} (hp : A.post k os (A.ghost ⟨k,past,p⟩))
    (ha : W.Accounts ⟨⟨k,past,p⟩ ::ₘ tasks,objs,log⟩ h) :
    W.Accounts ⟨tasks,os + objs,log⟩ h := by
  rcases ha with ⟨t,ht,hm⟩ | ⟨o,ho,hm⟩
  · rcases Multiset.mem_cons.mp ht with rfl | ht
    · obtain ⟨o,ho,hm⟩ := W.finish k os _ h hp hm
      exact .inr ⟨o,Multiset.mem_add.mpr (.inl ho),hm⟩
    · exact .inl ⟨t,ht,hm⟩
  · exact .inr ⟨o,Multiset.mem_add.mpr (.inr ho),hm⟩

theorem accounts_act {e : Event Op Reply} (hg : (A.contract k).guar (A.ghost ⟨k,past,p⟩) e)
    (hu : W.mark e ≠ .unset h) (ha : W.Accounts ⟨⟨k,past,p⟩ ::ₘ tasks,objs,log⟩ h) :
    W.Accounts ⟨⟨k,past ++ [e],q⟩ ::ₘ tasks,objs,log ++ [⟨k,past,e⟩]⟩ h := by
  rcases ha with ⟨t,ht,hm⟩ | hobj
  · rcases Multiset.mem_cons.mp ht with rfl | ht
    · refine .inl ⟨_,Multiset.mem_cons_self _ _,?_⟩
      rw [A.ghost_act k past e p q]
      exact W.keeps k _ e h hg hu hm
    · exact .inl ⟨t,Multiset.mem_cons_of_mem ht,hm⟩
  · exact .inr hobj

theorem accounts_set {e : Event Op Reply} (hg : (A.contract k).guar (A.ghost ⟨k,past,p⟩) e)
    (hs : W.mark e = .set h) (hl : ∀ o ∈ S.lends k, o ∈ objs) :
    W.Accounts ⟨⟨k,past ++ [e],q⟩ ::ₘ tasks,objs,log ++ [⟨k,past,e⟩]⟩ h := by
  rcases W.sets k _ e h hg hs with hm | ⟨o,ho,hm⟩
  · refine .inl ⟨_,Multiset.mem_cons_self _ _,?_⟩
    rw [A.ghost_act k past e p q]
    exact hm
  · exact .inr ⟨o,hl o ho,hm⟩

theorem accounted [DecidableEq H] {objects : Multiset Obj} {p : Pool Op Reply Kind Obj}
    (hr : S.Reach objects p) : ∀ h ∈ recorded (fun x => W.mark x.event) p.log, W.Accounts p h := by
  induction hr with
  | refl => simp [recorded]
  | tail hr hs ih =>
    intro h hh
    cases hs with
    | start k hk hl hf => exact accounts_start hk (ih h hh)
    | finish hret =>
      have hsound := A.sound_reach hr _ (Multiset.mem_cons_self _ _)
      exact accounts_finish (Contract.wp_returns _ hsound hret) (ih h hh)
    | act hstep ha =>
      have hsound := A.sound_reach hr _ (Multiset.mem_cons_self _ _)
      have hg := (A.sound_act hsound hstep ha).1
      rw [recorded_concat,Mark.mem_apply] at hh
      rcases hh with hset | ⟨hh,hu⟩
      · exact accounts_set hg hset (System.lent_present hr _ (Multiset.mem_cons_self _ _))
      · exact accounts_act hg hu (ih h hh)

end Watch

end Accord

end Interaction
