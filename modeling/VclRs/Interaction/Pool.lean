import VclRs.Interaction.Contract
import Mathlib.Algebra.BigOperators.Group.Multiset.Basic
import Mathlib.Logic.Relation

namespace Interaction

structure Record (Op : Type) (Reply : Op → Type) (Kind : Type) where
  kind : Kind
  past : List (Event Op Reply)
  event : Event Op Reply

def stamps {Op : Type} {Reply : Op → Type} {Kind : Type} (k : Kind) :
    List (Event Op Reply) → List (Event Op Reply) → List (Record Op Reply Kind)
  | _, [] => []
  | past, e :: tr => ⟨k,past,e⟩ :: stamps k (past ++ [e]) tr

structure System (Op : Type) (Reply : Op → Type) (Kind Obj : Type) where
  code : Kind → Prog Op Reply (Multiset Obj)
  opens : Kind → Prop
  takes : Kind → Multiset Obj
  lends : Kind → Multiset Obj
  admits : List (Record Op Reply Kind) → Kind → Event Op Reply → Prop

structure Task (Op : Type) (Reply : Op → Type) (Kind Obj : Type) where
  kind : Kind
  past : List (Event Op Reply)
  rest : Prog Op Reply (Multiset Obj)

structure Pool (Op : Type) (Reply : Op → Type) (Kind Obj : Type) where
  tasks : Multiset (Task Op Reply Kind Obj)
  objects : Multiset Obj
  log : List (Record Op Reply Kind)

variable {Op : Type} {Reply : Op → Type} {Kind Obj σ M : Type}

namespace System

variable (S : System Op Reply Kind Obj)

inductive Step : Pool Op Reply Kind Obj → Pool Op Reply Kind Obj → Prop
  | start {tasks : Multiset (Task Op Reply Kind Obj)} {rest : Multiset Obj}
      {log : List (Record Op Reply Kind)} (k : Kind) (hk : S.opens k)
      (hl : ∀ o ∈ S.lends k, o ∈ rest) (hf : ∀ t ∈ tasks, ∀ o ∈ S.takes k, o ∉ S.lends t.kind) :
      Step ⟨tasks,S.takes k + rest,log⟩ ⟨⟨k,[],S.code k⟩ ::ₘ tasks,rest,log⟩
  | act {tasks : Multiset (Task Op Reply Kind Obj)} {objects : Multiset Obj}
      {log : List (Record Op Reply Kind)} {k : Kind} {past : List (Event Op Reply)}
      {p q : Prog Op Reply (Multiset Obj)} {e : Event Op Reply} (h : Prog.Step p e q)
      (ha : S.admits log k e) :
      Step ⟨⟨k,past,p⟩ ::ₘ tasks,objects,log⟩ ⟨⟨k,past ++ [e],q⟩ ::ₘ tasks,objects,log ++ [⟨k,past,e⟩]⟩
  | finish {tasks : Multiset (Task Op Reply Kind Obj)} {objects os : Multiset Obj}
      {log : List (Record Op Reply Kind)} {k : Kind} {past : List (Event Op Reply)}
      {p : Prog Op Reply (Multiset Obj)} (h : Prog.Returns p os) :
      Step ⟨⟨k,past,p⟩ ::ₘ tasks,objects,log⟩ ⟨tasks,os + objects,log⟩

def Reach (objects : Multiset Obj) : Pool Op Reply Kind Obj → Prop :=
  Relation.ReflTransGen S.Step ⟨0,objects,[]⟩

def Admitted (k : Kind) : List (Record Op Reply Kind) → List (Event Op Reply) →
    List (Event Op Reply) → Prop
  | _, _, [] => True
  | log, past, e :: tr => S.admits log k e ∧ Admitted k (log ++ [⟨k,past,e⟩]) (past ++ [e]) tr

instance instDecidableAdmitted [hd : ∀ log k e, Decidable (S.admits log k e)] (k : Kind) :
    ∀ log past tr, Decidable (S.Admitted k log past tr)
  | _, _, [] => isTrue trivial
  | log, past, e :: tr =>
    have := instDecidableAdmitted k (log ++ [⟨k,past,e⟩]) (past ++ [e]) tr
    @instDecidableAnd _ _ (hd log k e) this

variable {S} {objects : Multiset Obj} {p : Pool Op Reply Kind Obj}

theorem reach_prefix (h : S.Reach objects p) {pre : List (Record Op Reply Kind)}
    (hp : pre <+: p.log) : ∃ q, S.Reach objects q ∧ q.log = pre := by
  induction h with
  | refl => exact ⟨_,.refl,(List.prefix_nil.mp hp).symm⟩
  | tail hr hs ih =>
    cases hs with
    | start k hk hl hf => exact ih hp
    | finish h => exact ih hp
    | act h ha =>
      rcases List.prefix_concat_iff.mp hp with rfl | hp
      · exact ⟨_,hr.tail (.act h ha),rfl⟩
      · exact ih hp

theorem reach_record (h : S.Reach objects p) {pre post : List (Record Op Reply Kind)}
    {x : Record Op Reply Kind} (hlog : p.log = pre ++ x :: post) :
    ∃ tasks objs q q', S.Reach objects ⟨⟨x.kind,x.past,q⟩ ::ₘ tasks,objs,pre⟩ ∧
      Prog.Step q x.event q' ∧ S.admits pre x.kind x.event := by
  induction h generalizing post with
  | refl => simp at hlog
  | tail hr hs ih =>
    cases hs with
    | start k hk hl hf => exact ih hlog
    | finish h => exact ih hlog
    | act hstep ha =>
      rcases List.eq_nil_or_concat post with rfl | ⟨post,y,rfl⟩
      · obtain ⟨rfl,hx⟩ := List.append_inj' hlog rfl
        cases hx
        exact ⟨_,_,_,_,hr,hstep,ha⟩
      · rw [List.concat_eq_append,← List.cons_append,← List.append_assoc] at hlog
        exact ih (List.append_inj' hlog rfl).1

theorem reach_run {tasks : Multiset (Task Op Reply Kind Obj)} {objs os : Multiset Obj}
    {log : List (Record Op Reply Kind)} {k : Kind} {past tr : List (Event Op Reply)}
    {q : Prog Op Reply (Multiset Obj)} (hadm : S.Admitted k log past tr)
    (hrun : Prog.Run q tr os) (h : S.Reach objects ⟨⟨k,past,q⟩ ::ₘ tasks,objs,log⟩) :
    S.Reach objects ⟨tasks,os + objs,log ++ stamps k past tr⟩ := by
  induction tr generalizing q past log with
  | nil =>
    rcases Prog.run_step hrun with ⟨-,hret⟩ | ⟨e,q',tr',heq,-⟩
    · rw [stamps,List.append_nil]
      exact h.tail (.finish hret)
    · cases heq
  | cons e tr ih =>
    rcases Prog.run_step hrun with ⟨heq,-⟩ | ⟨e',q',tr',heq,hs,hr⟩
    · cases heq
    · cases heq
      have hnext := h.tail (.act hs hadm.1)
      have hrest := ih hadm.2 hr hnext
      rw [List.append_assoc] at hrest
      exact hrest

theorem reach_call {rest os : Multiset Obj} {log : List (Record Op Reply Kind)} (k : Kind)
    {tr : List (Event Op Reply)} (hk : S.opens k) (hl : ∀ o ∈ S.lends k, o ∈ rest)
    (hadm : S.Admitted k log [] tr) (hrun : Prog.Run (S.code k) tr os)
    (h : S.Reach objects ⟨0,S.takes k + rest,log⟩) :
    S.Reach objects ⟨0,os + rest,log ++ stamps k [] tr⟩ :=
  reach_run hadm hrun (h.tail (.start k hk hl (by simp)))

def narrow (S : System Op Reply Kind Obj) (P : Kind → Event Op Reply → Prop) :
    System Op Reply Kind Obj where
  code := S.code
  opens := S.opens
  takes := S.takes
  lends := S.lends
  admits log k e := S.admits log k e ∧ P k e

theorem reach_narrow {P : Kind → Event Op Reply → Prop} (h : S.Reach objects p)
    (hp : ∀ x ∈ p.log, P x.kind x.event) : (S.narrow P).Reach objects p := by
  induction h with
  | refl => exact .refl
  | tail hr hs ih =>
    cases hs with
    | start k hk hl hf => exact (ih hp).tail (.start k hk hl hf)
    | finish hret => exact (ih hp).tail (.finish hret)
    | act hstep ha =>
      have hprev := ih (fun x hx => hp x (List.mem_append_left _ hx))
      have hlast := hp _ (List.mem_append_right _ (List.mem_singleton_self _))
      exact hprev.tail (.act hstep ⟨ha,hlast⟩)

theorem lent_present (h : S.Reach objects p) :
    ∀ t ∈ p.tasks, ∀ o ∈ S.lends t.kind, o ∈ p.objects := by
  induction h with
  | refl => simp
  | tail hr hs ih =>
    cases hs with
    | start k hk hl hf =>
      intro t ht o ho
      rcases Multiset.mem_cons.mp ht with rfl | ht
      · exact hl o ho
      · rcases Multiset.mem_add.mp (ih t ht o ho) with hx | hx
        · exact absurd ho (hf t ht o hx)
        · exact hx
    | act h ha =>
      intro t ht o ho
      rcases Multiset.mem_cons.mp ht with rfl | ht
      · exact ih _ (Multiset.mem_cons_self _ _) o ho
      · exact ih t (Multiset.mem_cons_of_mem ht) o ho
    | finish h =>
      intro t ht o ho
      exact Multiset.mem_add.mpr (.inr (ih t (Multiset.mem_cons_of_mem ht) o ho))

end System

structure Accord (S : System Op Reply Kind Obj) (σ : Type) where
  contract : Kind → Contract Op Reply σ
  init : Kind → σ
  post : Kind → Multiset Obj → σ → Prop
  keeps : ∀ k, S.opens k → (contract k).wp (S.code k) (post k) (init k)
  relies : ∀ log k e s, S.admits log k e → (contract k).rely s e

namespace Accord

variable {S : System Op Reply Kind Obj} (A : Accord S σ)

def state (k : Kind) (past : List (Event Op Reply)) : σ := (A.contract k).after (A.init k) past

def ghost (t : Task Op Reply Kind Obj) : σ := A.state t.kind t.past

def Sound (t : Task Op Reply Kind Obj) : Prop :=
  (A.contract t.kind).wp t.rest (A.post t.kind) (A.ghost t)

theorem ghost_act (k : Kind) (past : List (Event Op Reply)) (e : Event Op Reply)
    (p q : Prog Op Reply (Multiset Obj)) :
    A.ghost ⟨k,past ++ [e],q⟩ = (A.contract k).next (A.ghost ⟨k,past,p⟩) e := by
  simp only [ghost,state,Contract.after_append,Contract.after_cons,Contract.after_nil]

theorem sound_act {k : Kind} {past : List (Event Op Reply)} {e : Event Op Reply}
    {p q : Prog Op Reply (Multiset Obj)} {log : List (Record Op Reply Kind)}
    (h : A.Sound ⟨k,past,p⟩) (hs : Prog.Step p e q) (ha : S.admits log k e) :
    (A.contract k).guar (A.ghost ⟨k,past,p⟩) e ∧ A.Sound ⟨k,past ++ [e],q⟩ := by
  obtain ⟨hg,hw⟩ := (A.contract k).wp_step h hs (A.relies log k e _ ha)
  refine ⟨hg,?_⟩
  rw [Sound,A.ghost_act k past e p q]
  exact hw

theorem sound_reach {objects : Multiset Obj} {p : Pool Op Reply Kind Obj}
    (h : S.Reach objects p) : ∀ t ∈ p.tasks, A.Sound t := by
  induction h with
  | refl => simp
  | tail hr hs ih =>
    cases hs with
    | start k hk hl hf =>
      intro t ht
      rcases Multiset.mem_cons.mp ht with rfl | ht
      · exact A.keeps k hk
      · exact ih t ht
    | act h ha =>
      intro t ht
      rcases Multiset.mem_cons.mp ht with rfl | ht
      · exact (A.sound_act (ih _ (Multiset.mem_cons_self _ _)) h ha).2
      · exact ih t (Multiset.mem_cons_of_mem ht)
    | finish h =>
      intro t ht
      exact ih t (Multiset.mem_cons_of_mem ht)

theorem log_induction {objects : Multiset Obj} {I : List (Record Op Reply Kind) → Prop} (hnil : I [])
    (hact : ∀ (tasks : Multiset (Task Op Reply Kind Obj)) (objs : Multiset Obj)
      (log : List (Record Op Reply Kind)) (k : Kind) (past : List (Event Op Reply))
      (q : Prog Op Reply (Multiset Obj)) (e : Event Op Reply),
      S.Reach objects ⟨⟨k,past,q⟩ ::ₘ tasks,objs,log⟩ →
      (A.contract k).guar (A.ghost ⟨k,past,q⟩) e → S.admits log k e → I log →
      I (log ++ [⟨k,past,e⟩])) {p : Pool Op Reply Kind Obj} (h : S.Reach objects p) : I p.log := by
  induction h with
  | refl => exact hnil
  | tail hr hs ih =>
    cases hs with
    | start k hk hl hf => exact ih
    | finish h => exact ih
    | act hstep ha =>
      have hsound := A.sound_reach hr _ (Multiset.mem_cons_self _ _)
      exact hact _ _ _ _ _ _ _ hr (A.sound_act hsound hstep ha).1 ha ih

section Conservation

variable [AddCommMonoid M]

structure Book (A : Accord S σ) (M : Type) [AddCommMonoid M] where
  hold : σ → M
  worth : Obj → M
  gain : Record Op Reply Kind → M
  loss : Record Op Reply Kind → M
  rel : M → M → Prop
  rel_refl : ∀ a, rel a a
  rel_trans : ∀ a b c, rel a b → rel b c → rel a c
  rel_add : ∀ a b c, rel a b → rel (a + c) (b + c)
  start : ∀ k, S.opens k → rel (hold (A.init k)) ((S.takes k).map worth).sum
  act : ∀ k past e, (A.contract k).guar (A.state k past) e →
    rel (hold ((A.contract k).next (A.state k past) e) + loss ⟨k,past,e⟩)
      (hold (A.state k past) + gain ⟨k,past,e⟩)
  finish : ∀ k os s, A.post k os s → rel (os.map worth).sum (hold s)

namespace Book

theorem eq_add (a b c : M) (h : a = b) : a + c = b + c := congrArg (· + c) h

variable {A} (B : Book A M)

def total (p : Pool Op Reply Kind Obj) : M :=
  (p.tasks.map (fun t => B.hold (A.ghost t))).sum + (p.objects.map B.worth).sum

def gains (log : List (Record Op Reply Kind)) : M := (log.map B.gain).sum

def losses (log : List (Record Op Reply Kind)) : M := (log.map B.loss).sum

theorem gains_concat (log : List (Record Op Reply Kind)) (x : Record Op Reply Kind) :
    B.gains (log ++ [x]) = B.gains log + B.gain x := by
  simp [gains]

theorem losses_concat (log : List (Record Op Reply Kind)) (x : Record Op Reply Kind) :
    B.losses (log ++ [x]) = B.losses log + B.loss x := by
  simp [losses]

theorem rel_of_eq {a b : M} (h : a = b) : B.rel a b := h ▸ B.rel_refl a

theorem rel_congr {a b a' b' : M} (h : B.rel a b) (ha : a' = a) (hb : b = b') : B.rel a' b' := by
  rw [ha,← hb]
  exact h

theorem conserved {objects : Multiset Obj} {p : Pool Op Reply Kind Obj} (h : S.Reach objects p) :
    B.rel (B.total p + B.losses p.log) ((objects.map B.worth).sum + B.gains p.log) := by
  induction h with
  | refl => exact B.rel_of_eq (by simp [total,losses,gains])
  | tail hr hs ih =>
    have hsound := A.sound_reach hr
    cases hs with
    | @start tasks rest log k hk hl hf =>
      have hstep := B.rel_add _ _ ((tasks.map (fun t => B.hold (A.ghost t))).sum
        + (rest.map B.worth).sum + B.losses log) (B.start k hk)
      apply B.rel_trans _ _ _ (B.rel_congr hstep _ _) ih
      · simp only [total,ghost,state,Contract.after_nil,Multiset.map_cons,Multiset.sum_cons]
        ac_rfl
      · simp only [total,Multiset.map_add,Multiset.sum_add]
        ac_rfl
    | @finish tasks objs os log k past q h =>
      have hpost := (A.contract k).wp_returns (hsound _ (Multiset.mem_cons_self _ _)) h
      have hstep := B.rel_add _ _ ((tasks.map (fun t => B.hold (A.ghost t))).sum
        + (objs.map B.worth).sum + B.losses log) (B.finish k os _ hpost)
      apply B.rel_trans _ _ _ (B.rel_congr hstep _ _) ih
      · simp only [total,Multiset.map_add,Multiset.sum_add]
        ac_rfl
      · simp only [total,Multiset.map_cons,Multiset.sum_cons]
        ac_rfl
    | @act tasks objs log k past q q' e h ha =>
      have hg := (A.sound_act (hsound _ (Multiset.mem_cons_self _ _)) h ha).1
      have hstep := B.rel_add _ _ ((tasks.map (fun t => B.hold (A.ghost t))).sum
        + (objs.map B.worth).sum + B.losses log) (B.act k past e hg)
      have hprev := B.rel_add _ _ (B.gain ⟨k,past,e⟩) ih
      apply B.rel_trans _ _ _ (B.rel_congr hstep _ _) (B.rel_congr hprev rfl _)
      · simp only [total,losses_concat,Multiset.map_cons,Multiset.sum_cons,A.ghost_act k past e q q']
        ac_rfl
      · simp only [total,Multiset.map_cons,Multiset.sum_cons]
        ac_rfl
      · rw [gains_concat,add_assoc]

end Book

end Conservation

end Accord

end Interaction
