import VclRs.Parking.Ticks
import VclRs.Protocol.Jobs

namespace VclRs

open Interaction Fallible

section Changes

variable {e : Ev} {sh : Handle}

theorem lease_change (e : Ev) : lease e = (change e).mark .absent := by
  have hgrant (rc : Int) {x : Footing} (hx : x ≠ .absent) :
      leaseOf rc = (granting rc x).mark .absent := by
    rw [leaseOf,granting]
    split_ifs
    · rfl
    · rw [Change.mark,if_neg hx]
  have hconcede (rc : Int) (x : Handle) (f : Footing → Footing) :
      (conceding rc x f).mark .absent = .keep := by
    rw [conceding]
    split_ifs <;> rfl
  obtain ⟨op,reply⟩ := e
  cases op with
  | sessionCreate proto nonblocking => exact hgrant reply (by simp)
  | epollCreate => exact hgrant reply (by simp)
  | sessionAccept x => exact hgrant reply.1 (by simp)
  | sessionBind x ep => exact (hconcede reply x _).symm
  | sessionListen x n => exact (hconcede reply x _).symm
  | sessionConnect x ep =>
    change Mark.keep = (underway reply x).mark .absent
    rw [underway]
    split_ifs <;> rfl
  | _ => rfl

theorem conceded {rc : Int} {x : Handle} {f g : Footing → Footing}
    (h : conceding rc x g = .amend sh f) : sh = x ∧ f = g := by
  rw [conceding] at h
  split_ifs at h
  cases h
  exact ⟨rfl,rfl⟩

theorem amend_cases {f : Footing → Footing} (hc : change e = .amend sh f) :
    (∀ x, f x = .absent ↔ x = .absent) ∧ ∀ V, Legal V e.op → (V sh).Idle ∨ (V sh).Bound := by
  have hgrant {rc : Int} {x : Footing} : granting rc x ≠ .amend sh f := by
    rw [granting]
    split_ifs <;> simp
  obtain ⟨op,reply⟩ := e
  cases op with
  | sessionCreate proto nonblocking => exact absurd hc hgrant
  | epollCreate => exact absurd hc hgrant
  | sessionAccept x => exact absurd hc hgrant
  | sessionBind x ep =>
    obtain ⟨rfl,rfl⟩ := conceded hc
    exact ⟨fun _ => Footing.bind_absent,fun _ => .inl⟩
  | sessionListen x n =>
    obtain ⟨rfl,rfl⟩ := conceded hc
    exact ⟨fun _ => Footing.listen_absent,fun _ => .inr⟩
  | sessionConnect x ep =>
    change underway reply x = _ at hc
    rw [underway] at hc
    split_ifs at hc
    cases hc
    exact ⟨fun _ => Footing.connect_absent,fun _ h => h⟩
  | _ => cases hc

theorem footings_open (tr : List Ev) (sh : Handle) :
    footings tr sh ≠ .absent ↔ sh ∈ recorded lease tr := by
  have hmild (e : Ev) : (change e).Mild .absent := fun _ _ hc => (amend_cases hc).1
  have hlease : lease = fun e => (change e).mark .absent := funext lease_change
  rw [hlease]
  exact Change.chart_open hmild tr sh

theorem subject_cases (hs : (change e).subject = some sh) :
    (∃ x, change e = .put sh x ∧ sh ∈ obtained e) ∨ (∃ f, change e = .amend sh f) ∨
      change e = .put sh .absent ∧ sh ∈ released e := by
  have hlease := lease_change e
  cases hc : change e with
  | keep =>
    rw [hc] at hs
    cases hs
  | amend x f =>
    rw [hc] at hs
    cases hs
    exact .inr (.inl ⟨f,rfl⟩)
  | put x y =>
    rw [hc] at hs hlease
    cases hs
    by_cases hy : y = .absent
    · subst hy
      exact .inr (.inr ⟨rfl,lease_released hlease⟩)
    · rw [Change.mark,if_neg hy] at hlease
      exact .inl ⟨y,rfl,lease_obtained hlease⟩

end Changes

section Pools

inductive Ticks (vep : Handle) : Call → Prop
  | wait : Ticks vep (.epollWait vep 64 0)
  | one (sh : Handle) : Ticks vep (.notifyOne vep sh)
  | every : Ticks vep (.notifyEvery vep)

inductive Founds : Call → Prop
  | create : Founds .epollCreate
  | mq : Founds .mqEpollFd
  | async (fd : Int) : Founds (.asyncFd fd)

def Api.Strict : Api → Call → Prop
  | .tick r, c => Ticks r.vep c
  | .reactorNew, c => Founds c
  | _, _ => True

variable [Platform] {p : Pool Call Reply Job (Thread × Obj)}

theorem strict_reach (h : station.Reach 0 p) : ∀ t ∈ p.tasks, t.rest.Calls t.kind.api.Strict := by
  refine System.calls_reach (P := fun k => k.api.Strict) ?_ h
  rintro ⟨api,home⟩ -
  refine Prog.calls_bind ?_ (fun _ => trivial)
  cases api
  case tick r =>
    exact calls_bind (tick_calls .wait .one .every) (fun _ => calls_pure _)
  case reactorNew =>
    refine calls_bind ?_ (fun _ => calls_pure _)
    refine calls_bind (calls_call .create) (fun vep => ?_)
    refine calls_bind (checkRc_calls _) (fun _ => ?_)
    refine calls_bind (calls_call .mq) (fun mqRaw => ?_)
    refine calls_bind (calls_rejectIf _) (fun _ => ?_)
    refine calls_bind (calls_call (.async _)) (fun x => ?_)
    cases x with
    | error e => exact calls_err _
    | ok _ => exact calls_pure _
  all_goals exact Prog.calls_of_forall (fun _ => trivial) _

structure View (log : List Entry) (t : Worker) (V : Footings) : Prop where
  below : Below .absent V (footings (events log))
  keeps : conduct.wp t.rest (Yields t.kind.api) V
  claimed : ∀ sh, V sh ≠ .absent → sh ∈ (manned.ghost t).1 ∨
    (∃ o ∈ t.kind.api.lends, sh ∈ o.handles) ∨ Rooted log sh
  founds : t.kind.api = .reactorNew → ∀ sh, V sh ≠ .absent → Rooted log sh
  reactors : ∀ o, t.kind.api.concerns o → ∀ vep, o.vep = some vep → Rooted log vep

structure Conforms (p : Pool Call Reply Job (Thread × Obj)) : Prop where
  views : ∀ t ∈ p.tasks, t.kind.api.ticked = none → ∃ V, View p.log t V
  objects : ∀ x ∈ p.objects, (∀ sh ∈ x.2.handles, footings (events p.log) sh = x.2.footing) ∧
    ∀ vep, x.2.vep = some vep → Rooted p.log vep
  roots : ∀ vep, Rooted p.log vep → footings (events p.log) vep = .poller ∧
    (∀ t ∈ p.tasks, vep ∈ (manned.ghost t).1 → t.kind.api = .reactorNew) ∧
    ∀ x ∈ p.objects, vep ∉ x.2.handles

omit [Platform] in
theorem handles_footing {o : Obj} {sh : Handle} (h : sh ∈ o.handles) :
    o.footing.Session ∧ ¬ o.footing.Idle ∧ ¬ o.footing.Bound := by
  cases o with
  | reactor r => exact absurd h (Multiset.notMem_zero _)
  | listener l => exact ⟨trivial,id,id⟩
  | stream st => exact ⟨trivial,id,id⟩
  | dgram d => exact ⟨trivial,id,id⟩
  | udp u => exact ⟨trivial,id,id⟩

omit [Platform] in
theorem rooted_later {log : List Entry} {x : Entry} {vep : Handle} (h : Rooted log vep) :
    Rooted (log ++ [x]) vep := by
  obtain ⟨y,hy,hnew,hvep⟩ := h
  exact ⟨y,List.mem_append_left _ hy,hnew,hvep⟩

omit [Platform] in
theorem rooted_cases {log : List Entry} {x : Entry} {vep : Handle} (h : Rooted (log ++ [x]) vep) :
    Rooted log vep ∨ x.kind.api = .reactorNew ∧ vep ∈ obtained x.event := by
  obtain ⟨y,hy,hnew,hvep⟩ := h
  rcases List.mem_append.mp hy with hy | hy
  · exact .inl ⟨y,hy,hnew,hvep⟩
  · rw [← List.mem_singleton.mp hy]
    exact .inr ⟨hnew,hvep⟩

section Act

variable {tasks : Multiset Worker} {objs : Multiset (Thread × Obj)} {log : List Entry} {k : Job}
variable {past : List Ev} {q q' : Prog Call Reply (Multiset (Thread × Obj))} {e : Ev} {sh : Handle}

omit [Platform] in
theorem vacant_absent (ha : Vacant (events log) e) (hsh : sh ∈ obtained e) :
    footings (events log) sh = .absent := by
  by_contra hopen
  exact ha sh hsh ((footings_open _ _).mp hopen)

omit [Platform] in
theorem below_absent {V : Footings} (hb : Below .absent V (footings (events log)))
    (hsh : footings (events log) sh = .absent) : V sh = .absent := by
  by_contra hopen
  exact hopen ((hb sh hopen).symm.trans hsh)

theorem view_step {V : Footings} (hV : View log ⟨k,past,q⟩ V) (hs : Prog.Step q e q')
    (ha : station.admits log k e) :
    Legal V e.op ∧ conduct.wp q' (Yields k.api) ((change e).apply V) :=
  conduct.wp_step hV.keeps hs (fun _ hsh => below_absent hV.below (vacant_absent ha.1 hsh))

theorem last_released (ho : Orderly (log ++ [⟨k,past,e⟩])) (hsh : sh ∈ released e) :
    sh ∈ (manned.state k past).1 ∨ footings (events log) sh = .absent := by
  have hlast := ho log.length (by simp) sh (by simpa using hsh)
  simp only [List.getElem_concat_length,List.take_left] at hlast
  rw [manned_grip]
  rcases hlast with hmine | hfree
  · exact .inl hmine
  · refine .inr ?_
    by_contra hopen
    exact hfree ((footings_open _ _).mp hopen)

omit [Platform] in
theorem ticks_keep {vep : Handle} (h : Ticks vep e.op) : change e = .keep := by
  obtain ⟨op,reply⟩ := e
  cases h <;> rfl

omit [Platform] in
theorem founds_obtain (h : Founds e.op) (hsub : (change e).subject = some sh) :
    sh ∈ obtained e ∧ change e = .put sh .poller := by
  obtain ⟨op,reply⟩ := e
  cases h with
  | create =>
    change (granting reply .poller).subject = some sh at hsub
    change sh ∈ handleIf reply ∧ granting reply .poller = _
    rw [granting] at hsub ⊢
    rw [handleIf]
    split_ifs at hsub ⊢
    · cases hsub
    · have hsh : handleOf reply = sh := Option.some.inj hsub
      rw [hsh]
      exact ⟨Multiset.mem_singleton_self _,rfl⟩
  | mq => cases hsub
  | async fd => cases hsub

omit [Platform] in
theorem obtains_poller (h : Founds e.op) (hobt : sh ∈ obtained e) : change e = .put sh .poller := by
  obtain ⟨op,reply⟩ := e
  cases h with
  | create =>
    change sh ∈ handleIf reply at hobt
    change granting reply .poller = _
    rw [handleIf] at hobt
    rw [granting]
    split_ifs at hobt ⊢
    · exact absurd hobt (Multiset.notMem_zero _)
    · rw [Multiset.mem_singleton.mp hobt]
  | mq => exact absurd hobt (Multiset.notMem_zero _)
  | async fd => exact absurd hobt (Multiset.notMem_zero _)

omit [Platform] in
theorem grip_other {K : Multiset Handle} (hsub : (change e).subject ≠ some sh)
    (h : sh ∈ (lease e).grip K) : sh ∈ K := by
  rw [lease_change] at h
  cases hch : change e with
  | keep =>
    rw [hch] at h
    exact h
  | amend x f =>
    rw [hch] at h
    exact h
  | put x y =>
    rw [hch] at h hsub
    rw [Change.mark] at h
    split_ifs at h
    · exact Multiset.mem_of_mem_erase h
    · rcases Multiset.mem_cons.mp h with rfl | hmem
      · exact absurd rfl hsub
      · exact hmem

variable (hr : station.Reach 0 ⟨⟨k,past,q⟩ ::ₘ tasks,objs,log⟩)
variable (ho : Orderly (log ++ [⟨k,past,e⟩])) (hs : Prog.Step q e q')
variable (ha : station.admits log k e) (hc : Conforms ⟨⟨k,past,q⟩ ::ₘ tasks,objs,log⟩)

include hr ho in
theorem act_sole : occupancy.total ⟨⟨k,past,q⟩ ::ₘ tasks,objs,log⟩ ≤ (occupancy.live log).val := by
  have hprev := orderly_prefix ho
  exact sole_tenants hr hprev

include hr hs in
theorem act_strict : k.api.Strict e.op :=
  (Prog.calls_step (strict_reach hr _ (Multiset.mem_cons_self _ _)) hs).1

include hr hs in
theorem act_founds (hnew : k.api = .reactorNew) : Founds e.op := by
  have hstrict := act_strict hr hs
  rw [hnew] at hstrict
  exact hstrict

include hr hs in
theorem act_unticked (hsub : (change e).subject = some sh) : k.api.ticked = none := by
  have hstrict := act_strict hr hs
  obtain ⟨api,home⟩ := k
  cases api
  case tick r =>
    have hkeep := ticks_keep hstrict
    rw [hkeep] at hsub
    cases hsub
  all_goals rfl

include hr hs ha hc in
theorem amended_mine {f : Footing → Footing} (hf : change e = .amend sh f) :
    sh ∈ (manned.state k past).1 ∧ k.api ≠ .reactorNew := by
  have hsub : (change e).subject = some sh := by
    rw [hf]
    rfl
  obtain ⟨V,hV⟩ := hc.views _ (Multiset.mem_cons_self _ _) (act_unticked hr hs hsub)
  have hlegal := (amend_cases hf).2 V (view_step hV hs ha).1
  have hopen : V sh ≠ .absent := hlegal.elim Footing.idle_present Footing.bound_present
  have hchart := hV.below sh hopen
  have hunrooted : ¬ Rooted log sh := by
    intro hroot
    rw [← hchart,(hc.roots sh hroot).1] at hlegal
    exact hlegal.elim id id
  refine ⟨?_,fun hnew => hunrooted (hV.founds hnew sh hopen)⟩
  rcases hV.claimed sh hopen with hmine | ⟨o,hlent,hsh⟩ | hroot
  · exact hmine
  · have hobj := System.lent_present hr _ (Multiset.mem_cons_self _ _) _
      (Multiset.mem_map_of_mem (Prod.mk k.home) hlent)
    have hfooting : footings (events log) sh = o.footing := (hc.objects _ hobj).1 sh hsh
    rw [← hchart,hfooting] at hlegal
    obtain ⟨-,hidle,hbound⟩ := handles_footing hsh
    exact (hlegal.elim hidle hbound).elim
  · exact absurd hroot hunrooted

include hr ho hs ha hc

theorem subject_mine (hsub : (change e).subject = some sh) :
    footings (events log) sh = .absent ∨
      sh ∈ (manned.state k past).1 ∧ k.api ≠ .reactorNew := by
  rcases subject_cases hsub with ⟨x,-,hobt⟩ | ⟨f,hf⟩ | ⟨hput,hrel⟩
  · exact .inl (vacant_absent ha.1 hobt)
  · exact .inr (amended_mine hr hs ha hc hf)
  · rcases last_released ho hrel with hmine | hfree
    · refine .inr ⟨hmine,?_⟩
      intro hnew
      have hpoll := (founds_obtain (act_founds hr hs hnew) hsub).2
      rw [hput] at hpoll
      cases hpoll
    · exact .inl hfree

theorem root_spared (hroot : Rooted log sh) : (change e).subject ≠ some sh := by
  intro hsub
  obtain ⟨hpoll,htasks,-⟩ := hc.roots sh hroot
  rcases subject_mine hr ho hs ha hc hsub with hfree | ⟨hmine,hnew⟩
  · cases hpoll.symm.trans hfree
  · exact hnew (htasks _ (Multiset.mem_cons_self _ _) hmine)

theorem object_spared {x : Thread × Obj} (hx : x ∈ objs) (hsh : sh ∈ x.2.handles) :
    (change e).subject ≠ some sh := by
  intro hsub
  have hfooting : footings (events log) sh = x.2.footing := (hc.objects x hx).1 sh hsh
  rcases subject_mine hr ho hs ha hc hsub with hfree | ⟨hmine,-⟩
  · exact Footing.session_present (handles_footing hsh).1 (hfooting.symm.trans hfree)
  · exact (Accord.Estate.excludes (T := occupancy) (t := ⟨k,past,q⟩)
      (act_sole hr ho) hmine).2 x hx hsh

theorem view_spared {t : Worker} {V : Footings} (ht : t ∈ tasks) (hV : View log t V)
    (hsub : (change e).subject = some sh) : V sh = .absent := by
  by_contra hopen
  have hchart := hV.below sh hopen
  rcases hV.claimed sh hopen with htheirs | ⟨o,hlent,hsh⟩ | hroot
  · rcases subject_mine hr ho hs ha hc hsub with hfree | ⟨hmine,-⟩
    · exact hopen (hchart.symm.trans hfree)
    · exact (Accord.Estate.excludes (T := occupancy) (t := ⟨k,past,q⟩)
        (act_sole hr ho) hmine).1 t ht htheirs
  · have hobj := System.lent_present hr t (Multiset.mem_cons_of_mem ht) _
      (Multiset.mem_map_of_mem (Prod.mk t.kind.home) hlent)
    exact object_spared hr ho hs ha hc hobj hsh hsub
  · exact root_spared hr ho hs ha hc hroot hsub

omit ho ha hc in
theorem act_rooted (hnew : k.api = .reactorNew) (hsub : (change e).subject = some sh) :
    Rooted (log ++ [⟨k,past,e⟩]) sh :=
  ⟨_,List.mem_append_right _ (List.mem_singleton_self _),hnew,
    (founds_obtain (act_founds hr hs hnew) hsub).1⟩

omit ho in
theorem view_act {V : Footings} (hV : View log ⟨k,past,q⟩ V) :
    View (log ++ [⟨k,past,e⟩]) ⟨k,past ++ [e],q'⟩ ((change e).apply V) := by
  obtain ⟨hlegal,hkeeps⟩ := view_step hV hs ha
  have hghost : (manned.ghost ⟨k,past ++ [e],q'⟩).1 = (lease e).grip (manned.state k past).1 := by
    rw [manned.ghost_act k past e q q']
    rfl
  refine ⟨?_,hkeeps,?_,?_,?_⟩
  · rw [events_append]
    change Below _ _ (footings (events log ++ [e]))
    rw [footings_concat]
    refine below_own hV.below ?_
    intro sh f hf
    exact ((amend_cases hf).2 V hlegal).elim Footing.idle_present Footing.bound_present
  · intro sh hopen
    rw [hghost]
    by_cases hsub : (change e).subject = some sh
    · left
      rcases subject_cases hsub with ⟨x,hput,-⟩ | ⟨f,hf⟩ | ⟨hput,-⟩
      · have hx : x ≠ .absent := by
          rw [hput] at hopen
          simpa [Change.apply] using hopen
        rw [lease_change,hput,Change.mark,if_neg hx]
        exact Multiset.mem_cons_self _ _
      · rw [lease_change,hf]
        exact (amended_mine hr hs ha hc hf).1
      · rw [hput] at hopen
        simp [Change.apply] at hopen
    · rw [Change.apply_other hsub] at hopen
      rcases hV.claimed sh hopen with hmine | hlent | hroot
      · left
        rw [lease_change]
        cases hch : change e with
        | keep => exact hmine
        | amend x f => exact hmine
        | put x y =>
          have hne : sh ≠ x := by
            rintro rfl
            rw [hch] at hsub
            exact hsub rfl
          rw [Change.mark]
          split_ifs
          · exact (Multiset.mem_erase_of_ne hne).mpr hmine
          · exact Multiset.mem_cons_of_mem hmine
      · exact .inr (.inl hlent)
      · exact .inr (.inr (rooted_later hroot))
  · intro hnew sh hopen
    by_cases hsub : (change e).subject = some sh
    · exact act_rooted hr hs hnew hsub
    · rw [Change.apply_other hsub] at hopen
      exact rooted_later (hV.founds hnew sh hopen)
  · intro o hcon vep hvep
    exact rooted_later (hV.reactors o hcon vep hvep)

theorem view_other {t : Worker} {V : Footings} (ht : t ∈ tasks) (hV : View log t V) :
    View (log ++ [⟨k,past,e⟩]) t V := by
  refine ⟨?_,hV.keeps,?_,?_,?_⟩
  · rw [events_append]
    change Below _ _ (footings (events log ++ [e]))
    rw [footings_concat]
    exact below_other hV.below (fun sh => view_spared hr ho hs ha hc ht hV)
  · intro sh hopen
    rcases hV.claimed sh hopen with hmine | hlent | hroot
    · exact .inl hmine
    · exact .inr (.inl hlent)
    · exact .inr (.inr (rooted_later hroot))
  · intro hnew sh hopen
    exact rooted_later (hV.founds hnew sh hopen)
  · intro o hcon vep hvep
    exact rooted_later (hV.reactors o hcon vep hvep)

theorem conforms_act : Conforms ⟨⟨k,past ++ [e],q'⟩ ::ₘ tasks,objs,log ++ [⟨k,past,e⟩]⟩ := by
  have hchart : footings (events (log ++ [⟨k,past,e⟩])) = (change e).apply (footings (events log)) := by
    rw [events_append]
    exact footings_concat _ _
  constructor
  · intro t ht htick
    rcases Multiset.mem_cons.mp ht with rfl | ht
    · obtain ⟨V,hV⟩ := hc.views _ (Multiset.mem_cons_self _ _) htick
      exact ⟨_,view_act hr hs ha hc hV⟩
    · obtain ⟨V,hV⟩ := hc.views t (Multiset.mem_cons_of_mem ht) htick
      exact ⟨V,view_other hr ho hs ha hc ht hV⟩
  · intro x hx
    obtain ⟨hfooting,hvep⟩ := hc.objects x hx
    refine ⟨?_,fun vep h => rooted_later (hvep vep h)⟩
    intro sh hsh
    rw [hchart,Change.apply_other (object_spared hr ho hs ha hc hx hsh)]
    exact hfooting sh hsh
  · intro vep hroot
    rw [hchart]
    rcases rooted_cases hroot with hold | ⟨hnew,hobt⟩
    · have hsub := root_spared hr ho hs ha hc hold
      obtain ⟨hpoll,htasks,hobjs⟩ := hc.roots vep hold
      refine ⟨?_,?_,hobjs⟩
      · rw [Change.apply_other hsub]
        exact hpoll
      · intro t ht hmem
        rcases Multiset.mem_cons.mp ht with rfl | ht
        · refine htasks ⟨k,past,q⟩ (Multiset.mem_cons_self _ _) ?_
          rw [manned.ghost_act k past e q q'] at hmem
          exact grip_other hsub hmem
        · exact htasks t (Multiset.mem_cons_of_mem ht) hmem
    · have hfree := vacant_absent ha.1 hobt
      have hput := obtains_poller (act_founds hr hs hnew) hobt
      refine ⟨?_,?_,?_⟩
      · rw [hput]
        exact Function.update_self _ _ _
      · intro t ht hmem
        rcases Multiset.mem_cons.mp ht with rfl | ht
        · exact hnew
        · have hlive := Accord.Estate.tenant_live (T := occupancy)
            (act_sole hr ho) (Multiset.mem_cons_of_mem ht) hmem
          rw [live_events] at hlive
          exact absurd hfree ((footings_open _ _).mpr hlive)
      · intro x hx hmem
        have hfooting : footings (events log) vep = x.2.footing := (hc.objects x hx).1 vep hmem
        exact Footing.session_present (handles_footing hmem).1 (hfooting.symm.trans hfree)

end Act

end Pools

end VclRs
