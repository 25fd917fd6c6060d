import VclRs.Protocol.Ownership

namespace VclRs

open Interaction Fallible

section Pools

variable [Platform] {p : Pool Call Reply Job (Thread × Obj)}

def fruitless : Accord station (List Ev) where
  contract _ := Contract.tracing Call Reply
  init _ := []
  post k os _ := k.api.ticked ≠ none → os = 0
  keeps := by
    rintro ⟨api,home⟩ -
    cases api
    case tick r =>
      refine wp_serving.mpr (Contract.wp_of_forall _ (fun _ _ => trivial) ?_ [])
      intro res tr
      cases res <;> exact fun _ => rfl
    all_goals exact Contract.wp_of_forall _ (fun _ _ => trivial) (fun _ _ h => absurd rfl h) []
  relies _ _ _ _ _ := trivial

section Turns

variable {tasks : Multiset Worker} {objs rest os : Multiset (Thread × Obj)} {log : List Entry}
variable {k : Job} {past : List Ev} {q : Prog Call Reply (Multiset (Thread × Obj))}

theorem concerned_present (hl : ∀ o ∈ station.lends k, o ∈ rest) {o : Obj} (ho : k.api.concerns o) :
    (k.home,o) ∈ station.takes k + rest := by
  rcases ho with htaken | hlent
  · exact Multiset.mem_add.mpr (.inl (Multiset.mem_map_of_mem _ htaken))
  · exact Multiset.mem_add.mpr (.inr (hl _ (Multiset.mem_map_of_mem _ hlent)))

open Classical in
theorem view_start (hk : k.api.ticked = none) (hl : ∀ o ∈ station.lends k, o ∈ rest)
    (hc : Conforms ⟨tasks,station.takes k + rest,log⟩) :
    ∃ V, View log ⟨k,[],station.code k⟩ V := by
  let K (sh : Handle) : Prop := ∃ o, k.api.concerns o ∧ (sh ∈ o.handles ∨ o.vep = some sh)
  have hobj {o : Obj} (ho : k.api.concerns o) := hc.objects _ (concerned_present hl ho)
  have hopen {sh : Handle} (h : (if K sh then footings (events log) sh else .absent) ≠ .absent) :
      K sh := by
    by_contra hK
    exact h (if_neg hK)
  refine ⟨fun sh => if K sh then footings (events log) sh else .absent,below_restrict K _,?_,?_,?_,?_⟩
  · refine job_conducts k hk (fun o ho => ⟨?_,?_⟩)
    · intro sh hsh
      rw [if_pos ⟨o,ho,.inl hsh⟩]
      exact (hobj ho).1 sh hsh
    · intro vep hvep
      rw [if_pos ⟨o,ho,.inr hvep⟩]
      exact (hc.roots vep ((hobj ho).2 vep hvep)).1
  · intro sh h
    obtain ⟨o,ho,hsh | hvep⟩ := hopen h
    · rcases ho with htaken | hlent
      · exact .inl (Multiset.mem_bind.mpr ⟨_,Multiset.mem_map_of_mem _ htaken,hsh⟩)
      · exact .inr (.inl ⟨o,hlent,hsh⟩)
    · exact .inr (.inr ((hobj ho).2 sh hvep))
  · intro hnew sh h
    obtain ⟨o,ho,-⟩ := hopen h
    rw [Api.concerns,show k.api = .reactorNew from hnew] at ho
    rcases ho with ho | ho
    · exact absurd ho (Multiset.notMem_zero _)
    · exact absurd ho (Multiset.notMem_zero _)
  · intro o ho
    exact (hobj ho).2

theorem conforms_start (hl : ∀ o ∈ station.lends k, o ∈ rest)
    (hc : Conforms ⟨tasks,station.takes k + rest,log⟩) :
    Conforms ⟨⟨k,[],station.code k⟩ ::ₘ tasks,rest,log⟩ := by
  constructor
  · intro t ht hk
    rcases Multiset.mem_cons.mp ht with rfl | ht
    · exact view_start hk hl hc
    · exact hc.views t ht hk
  · intro x hx
    exact hc.objects x (Multiset.mem_add.mpr (.inr hx))
  · intro vep hroot
    obtain ⟨hpoll,htasks,hobjs⟩ := hc.roots vep hroot
    refine ⟨hpoll,?_,fun x hx => hobjs x (Multiset.mem_add.mpr (.inr hx))⟩
    intro t ht hmem
    rcases Multiset.mem_cons.mp ht with rfl | ht
    · obtain ⟨x,hx,hvep⟩ := Multiset.mem_bind.mp hmem
      exact absurd hvep (hobjs x (Multiset.mem_add.mpr (.inl hx)))
    · exact htasks t ht hmem

theorem fruit_footing (hr : station.Reach 0 ⟨⟨k,past,q⟩ ::ₘ tasks,objs,log⟩)
    (hret : Prog.Returns q os) (hc : Conforms ⟨⟨k,past,q⟩ ::ₘ tasks,objs,log⟩) :
    ∀ x ∈ os, (∀ sh ∈ x.2.handles, footings (events log) sh = x.2.footing) ∧
      ∀ vep, x.2.vep = some vep → Rooted log vep := by
  intro x hx
  by_cases hk : k.api.ticked = none
  · obtain ⟨V,hV⟩ := hc.views _ (Multiset.mem_cons_self _ _) hk
    obtain ⟨hfooting,hvep⟩ := conduct.wp_returns hV.keeps hret x hx
    constructor
    · intro sh hsh
      rw [← hfooting sh hsh]
      refine hV.below sh ?_
      rw [hfooting sh hsh]
      exact Footing.session_present (handles_footing hsh).1
    · intro vep h
      rcases hvep vep h with ⟨o,ho,hov⟩ | ⟨hpoll,hnew⟩
      · exact hV.reactors o ho vep hov
      · refine hV.founds hnew vep ?_
        rw [hpoll]
        simp
  · have hsound := fruitless.sound_reach hr _ (Multiset.mem_cons_self _ _)
    have hnone : os = 0 := (fruitless.contract k).wp_returns hsound hret hk
    rw [hnone] at hx
    exact absurd hx (Multiset.notMem_zero _)

theorem conforms_finish (hr : station.Reach 0 ⟨⟨k,past,q⟩ ::ₘ tasks,objs,log⟩)
    (hret : Prog.Returns q os) (hc : Conforms ⟨⟨k,past,q⟩ ::ₘ tasks,objs,log⟩) :
    Conforms ⟨tasks,os + objs,log⟩ := by
  have hfruit := fruit_footing hr hret hc
  constructor
  · intro t ht
    exact hc.views t (Multiset.mem_cons_of_mem ht)
  · intro x hx
    rcases Multiset.mem_add.mp hx with hx | hx
    · exact hfruit x hx
    · exact hc.objects x hx
  · intro vep hroot
    obtain ⟨hpoll,htasks,hobjs⟩ := hc.roots vep hroot
    refine ⟨hpoll,fun t ht => htasks t (Multiset.mem_cons_of_mem ht),?_⟩
    intro x hx hmem
    rcases Multiset.mem_add.mp hx with hx | hx
    · have hsession := (handles_footing hmem).1
      rw [← (hfruit x hx).1 vep hmem,hpoll] at hsession
      exact hsession
    · exact hobjs x hx hmem

end Turns

theorem conforms_reach (h : station.Reach 0 p) (ho : Orderly p.log) : Conforms p := by
  induction h with
  | refl =>
    constructor
    · simp
    · simp
    · rintro vep ⟨x,hx,-⟩
      cases hx
  | tail hr hs ih =>
    cases hs with
    | start k hk hl hf => exact conforms_start hl (ih ho)
    | act hstep ha =>
      have hprev := orderly_prefix ho
      exact conforms_act hr ho hstep ha (ih hprev)
    | finish hret => exact conforms_finish hr hret (ih ho)

structure Conformant (p : Pool Call Reply Job (Thread × Obj)) : Prop where
  calls : ∀ pre x post, p.log = pre ++ x :: post → Legal (footings (events pre)) x.event.op
  objects : ∀ x ∈ p.objects, ∀ sh ∈ x.2.handles, footings (events p.log) sh = x.2.footing
  reactors : ∀ x ∈ p.objects, ∀ vep, x.2.vep = some vep → footings (events p.log) vep = .poller

omit [Platform] in
theorem ticking_last {log : List Entry} {x : Entry} (h : Ticking (log ++ [x])) :
    ∀ r ∈ x.kind.api.ticked, Rooted log r.vep := by
  have hlast := h log.length (by simp)
  simpa using hlast

omit [Platform] in
theorem ticking_initial {log : List Entry} {x : Entry} (h : Ticking (log ++ [x])) : Ticking log := by
  intro i hi r hr
  have hlt : i < (log ++ [x]).length := by
    rw [List.length_append]
    omega
  have hget : (log ++ [x])[i] = log[i] := List.getElem_append_left hi
  have htake : (log ++ [x]).take i = log.take i := List.take_append_of_le_length hi.le
  have hwhole := h i hlt r
  rw [hget,htake] at hwhole
  exact hwhole hr

omit [Platform] in
theorem log_initial {P : List Entry → Prop} (hP : ∀ log x, P (log ++ [x]) → P log)
    {pre post : List Entry} (h : P (pre ++ post)) : P pre := by
  induction post using List.reverseRecOn with
  | nil =>
    rw [List.append_nil] at h
    exact h
  | append_singleton post y ih =>
    rw [← List.append_assoc] at h
    exact ih (hP _ _ h)

theorem act_legal {tasks : Multiset Worker} {objs : Multiset (Thread × Obj)} {log : List Entry}
    {x : Entry} {q q' : Prog Call Reply (Multiset (Thread × Obj))}
    (hr : station.Reach 0 ⟨⟨x.kind,x.past,q⟩ ::ₘ tasks,objs,log⟩) (hs : Prog.Step q x.event q')
    (ha : station.admits log x.kind x.event) (ho : Orderly log) (ht : Ticking (log ++ [x])) :
    Legal (footings (events log)) x.event.op := by
  have hc := conforms_reach hr ho
  cases hk : x.kind.api.ticked with
  | none =>
    obtain ⟨V,hV⟩ := hc.views _ (Multiset.mem_cons_self _ _) hk
    exact legal_below hV.below (view_step hV hs ha).1
  | some r =>
    have hpoll := (hc.roots _ (ticking_last ht r hk)).1
    have hstrict := act_strict hr hs
    obtain ⟨⟨api,home⟩,past,op,reply⟩ := x
    cases api <;> cases hk
    cases hstrict with
    | wait => exact hpoll
    | one sh => trivial
    | every => trivial

end Pools

end VclRs
