import VclRs.Interaction.Marks
import Mathlib.Algebra.Order.Group.Multiset
import Mathlib.Data.Multiset.Bind

namespace Interaction

section Grip

variable {H : Type} [DecidableEq H]

def Mark.grip (K : Multiset H) : Mark H → Multiset H
  | .set h => h ::ₘ K
  | .unset h => K.erase h
  | .keep => K

theorem Mark.grip_within {K L : Multiset H} {w : Finset H} {m : Mark H} (h : K + L ≤ w.val)
    (hset : ∀ x, m = .set x → x ∉ w) (hunset : ∀ x, m = .unset x → x ∈ K ∨ x ∉ w) :
    m.grip K + L ≤ (m.apply w).val := by
  cases m with
  | set x =>
    change x ::ₘ K + L ≤ (insert x w).val
    rw [Finset.insert_val_of_notMem (hset x rfl),Multiset.cons_add]
    exact Multiset.cons_le_cons x h
  | unset x =>
    change K.erase x + L ≤ (w.erase x).val
    rcases hunset x rfl with hx | hx
    · rw [Finset.erase_val,← Multiset.erase_add_left_pos L hx]
      exact Multiset.erase_le_erase x h
    · have hK : x ∉ K := fun hmem => hx (Multiset.mem_of_le h (Multiset.mem_add.mpr (.inl hmem)))
      rw [Finset.erase_eq_of_notMem hx,Multiset.erase_of_notMem hK]
      exact h
  | keep => exact h

end Grip

variable {Op : Type} {Reply : Op → Type} {Kind Obj σ H : Type}
variable {S : System Op Reply Kind Obj}

theorem System.fresh_code {objects : Multiset Obj} {p : Pool Op Reply Kind Obj}
    (h : S.Reach objects p) : ∀ t ∈ p.tasks, t.past = [] → t.rest = S.code t.kind := by
  induction h with
  | refl => simp
  | tail hr hs ih =>
    cases hs with
    | start k hk hl hf =>
      intro t ht hpast
      rcases Multiset.mem_cons.mp ht with rfl | ht
      · rfl
      · exact ih t ht hpast
    | act hstep ha =>
      intro t ht hpast
      rcases Multiset.mem_cons.mp ht with rfl | ht
      · exact absurd hpast (List.append_ne_nil_of_right_ne_nil _ (by simp))
      · exact ih t (Multiset.mem_cons_of_mem ht) hpast
    | finish hret =>
      intro t ht
      exact ih t (Multiset.mem_cons_of_mem ht)

namespace Accord

structure Estate (A : Accord S σ) (H : Type) [DecidableEq H] where
  mark : Event Op Reply → Mark H
  hold : σ → Multiset H
  worth : Obj → Multiset H
  start : ∀ k, S.opens k → hold (A.init k) ≤ ((S.takes k).map worth).sum
  act : ∀ k s e, hold ((A.contract k).next s e) ≤ (mark e).grip (hold s)
  finish : ∀ k os s, A.post k os s → (os.map worth).sum ≤ hold s

namespace Estate

variable [DecidableEq H] {A : Accord S σ} (T : A.Estate H)

def live (log : List (Record Op Reply Kind)) : Finset H := recorded (fun x => T.mark x.event) log

def total (p : Pool Op Reply Kind Obj) : Multiset H :=
  (p.tasks.map (fun t => T.hold (A.ghost t))).sum + (p.objects.map T.worth).sum

structure Regular (log : List (Record Op Reply Kind)) (x : Record Op Reply Kind) : Prop where
  vacant : ∀ h, T.mark x.event = .set h → h ∉ T.live log
  rightful : ∀ h, T.mark x.event = .unset h → h ∈ T.hold (A.state x.kind x.past) ∨ h ∉ T.live log

variable {T} {objects : Multiset Obj} {p : Pool Op Reply Kind Obj}

theorem total_act {tasks : Multiset (Task Op Reply Kind Obj)} {objs : Multiset Obj}
    {log : List (Record Op Reply Kind)} {k : Kind} {past : List (Event Op Reply)}
    {q q' : Prog Op Reply (Multiset Obj)} {e : Event Op Reply} (hx : T.Regular log ⟨k,past,e⟩)
    (h : T.total ⟨⟨k,past,q⟩ ::ₘ tasks,objs,log⟩ ≤ (T.live log).val) :
    T.total ⟨⟨k,past ++ [e],q'⟩ ::ₘ tasks,objs,log ++ [⟨k,past,e⟩]⟩ ≤
      (T.live (log ++ [⟨k,past,e⟩])).val := by
  simp only [total,Multiset.map_cons,Multiset.sum_cons,add_assoc] at h ⊢
  rw [live,recorded_concat]
  have hstep := Mark.grip_within h hx.vacant hx.rightful
  have hown : T.hold (A.ghost ⟨k,past ++ [e],q'⟩) ≤ (T.mark e).grip (T.hold (A.ghost ⟨k,past,q⟩)) := by
    rw [A.ghost_act k past e q q']
    exact T.act k _ e
  exact le_trans (add_le_add_left hown _) hstep

theorem sole (h : S.Reach objects p) (ho : (objects.map T.worth).sum = 0)
    (hlog : ∀ pre x, pre ++ [x] <+: p.log → T.Regular pre x) :
    T.total p ≤ (T.live p.log).val := by
  induction h with
  | refl =>
    change 0 + _ ≤ _
    rw [ho]
    exact Multiset.zero_le _
  | tail hr hs ih =>
    cases hs with
    | @start tasks rest log k hk hl hf =>
      have hown := T.start k hk
      have hprev := ih hlog
      simp only [total,ghost,state,Contract.after_nil,Multiset.map_cons,Multiset.sum_cons,
        Multiset.map_add,Multiset.sum_add] at hprev ⊢
      refine le_trans ?_ hprev
      rw [add_assoc,add_left_comm]
      exact add_le_add_right (add_le_add_left hown _) _
    | @act tasks objs log k past q q' e hstep ha =>
      have hprev := ih (fun pre x hx => hlog pre x (hx.trans (List.prefix_append _ _)))
      exact total_act (hlog log _ List.prefix_rfl) hprev
    | @finish tasks objs os log k past q hret =>
      have hsound := A.sound_reach hr _ (Multiset.mem_cons_self _ _)
      have hown := T.finish k os _ ((A.contract k).wp_returns hsound hret)
      have hprev := ih hlog
      simp only [total,Multiset.map_cons,Multiset.sum_cons,Multiset.map_add,Multiset.sum_add] at hprev ⊢
      refine le_trans ?_ hprev
      rw [add_assoc,add_left_comm]
      exact add_le_add_left hown _

theorem tenant_live {t : Task Op Reply Kind Obj} {h : H} (hs : T.total p ≤ (T.live p.log).val)
    (ht : t ∈ p.tasks) (hh : h ∈ T.hold (A.ghost t)) : h ∈ T.live p.log :=
  Multiset.mem_of_le hs (Multiset.mem_add.mpr (.inl (Multiset.mem_bind.mpr ⟨t,ht,hh⟩)))

theorem excludes {t : Task Op Reply Kind Obj} {tasks : Multiset (Task Op Reply Kind Obj)}
    {objs : Multiset Obj} {log : List (Record Op Reply Kind)} {h : H}
    (hs : T.total ⟨t ::ₘ tasks,objs,log⟩ ≤ (T.live log).val) (ht : h ∈ T.hold (A.ghost t)) :
    (∀ t' ∈ tasks, h ∉ T.hold (A.ghost t')) ∧ ∀ o ∈ objs, h ∉ T.worth o := by
  have hnodup := Multiset.nodup_of_le hs (T.live log).nodup
  simp only [total,Multiset.map_cons,Multiset.sum_cons,add_assoc] at hnodup
  obtain ⟨-,-,hdis⟩ := Multiset.nodup_add.mp hnodup
  have hout := Multiset.disjoint_left.mp hdis ht
  constructor
  · intro t' ht' hmem
    exact hout (Multiset.mem_add.mpr (.inl (Multiset.mem_bind.mpr ⟨t',ht',hmem⟩)))
  · intro o ho hmem
    exact hout (Multiset.mem_add.mpr (.inr (Multiset.mem_bind.mpr ⟨o,ho,hmem⟩)))

end Estate

end Accord

end Interaction
