import VclRs.Care
import VclRs.World
import VclRs.Rehearsal
import Mathlib.Data.Multiset.Bind

namespace VclRs

open Interaction Fallible

def Api.tends : Api → Option VclReactor
  | .reactorClone r => some r
  | .reactorDrop r => some r
  | .tick r => some r
  | .listenerBind _ r => some r
  | .listenerAccept l => some l.reactor
  | .listenerLocalAddr l => some l.reactor
  | .listenerDrop l => some l.reactor
  | .streamConnectAsync _ _ r _ => some r
  | .streamRead s _ => some s.reactor
  | .streamReadExact s _ => some s.reactor
  | .streamWriteAll s _ => some s.reactor
  | .streamLocalAddr s => some s.reactor
  | .streamPeerAddr s => some s.reactor
  | .streamPollRead s _ _ _ => some s.reactor
  | .streamPollWrite s _ _ _ => some s.reactor
  | .streamPollFlush s => some s.reactor
  | .streamPollShutdown s => some s.reactor
  | .streamDrop s => some s.reactor
  | .dgramBind _ r => some r
  | .dgramBindEphemeralV4 r => some r
  | .dgramBindEphemeralV6 r => some r
  | .dgramRecvFrom d _ => some d.reactor
  | .dgramTryRecvFrom d _ => some d.reactor
  | .dgramWaitReadable d => some d.reactor
  | .dgramSendTo d _ _ => some d.reactor
  | .dgramLocalAddr d => some d.reactor
  | .dgramDrop d => some d.reactor
  | _ => none

def Api.connecting : Api → Bool
  | .streamConnectAsync _ _ _ _ => true
  | _ => false

def handlesOf (os : Multiset (Thread × Obj)) : Multiset Handle :=
  (os.map (fun x => x.2.handles)).sum

theorem mem_handlesOf {os : Multiset (Thread × Obj)} {sh : Handle} :
    sh ∈ handlesOf os ↔ ∃ x ∈ os, sh ∈ x.2.handles := Multiset.mem_bind

section Tending

variable [Platform]

def Clean (r : VclReactor) (k : Job) : Ev → Prop
  | ⟨.epollCtl v .add _ _,rc⟩ => v = r.vep → ¬ rc < 0
  | ⟨.sessionConnect _ _,rc⟩ => rc < 0 → fromRc rc = .wouldBlock
  | ⟨.select _ _ _,(_,sel)⟩ => k.api.connecting = true → sel = .readable ∨ sel = .notified
  | ⟨.recheck _,(_,again)⟩ => k.api.connecting = true → again ≠ .dropped
  | ⟨.sessionAttr _ (.setFlags _),(rc,_)⟩ => ¬ rc < 0
  | ⟨.sessionAttr _ .getLclAddr,(rc,_)⟩ => k.api.binding = true → ¬ rc < 0
  | _ => True

instance instDecidableClean (r : VclReactor) (k : Job) : ∀ e : Ev, Decidable (Clean r k e)
  | ⟨.epollCtl v .add _ _,rc⟩ => inferInstanceAs (Decidable (v = r.vep → ¬ (rc : Int) < 0))
  | ⟨.sessionConnect _ _,rc⟩ =>
    inferInstanceAs (Decidable ((rc : Int) < 0 → fromRc rc = .wouldBlock))
  | ⟨.select _ _ _,(_,sel)⟩ =>
    inferInstanceAs (Decidable (k.api.connecting = true → sel = .readable ∨ sel = .notified))
  | ⟨.recheck _,(_,again)⟩ =>
    inferInstanceAs (Decidable (k.api.connecting = true → again ≠ .dropped))
  | ⟨.sessionAttr _ (.setFlags _),(rc,_)⟩ => inferInstanceAs (Decidable (¬ rc < 0))
  | ⟨.sessionAttr _ .getLclAddr,(rc,_)⟩ =>
    inferInstanceAs (Decidable (k.api.binding = true → ¬ rc < 0))
  | ⟨.initializedSwap _,_⟩ | ⟨.initializedStore _,_⟩ | ⟨.appCreate _,_⟩ | ⟨.appCreated,_⟩
  | ⟨.appDestroy,_⟩ | ⟨.appDestroyed,_⟩
  | ⟨.workerRegister,_⟩ | ⟨.workerIndex,_⟩ | ⟨.workerUnregister,_⟩ | ⟨.sessionCreate _ _,_⟩
  | ⟨.sessionClose _,_⟩ | ⟨.sessionShutdown _ _,_⟩ | ⟨.sessionBind _ _,_⟩
  | ⟨.sessionListen _ _,_⟩ | ⟨.sessionAccept _,_⟩ | ⟨.sessionRead _ _,_⟩ | ⟨.sessionWrite _ _,_⟩
  | ⟨.sessionSendto _ _ _,_⟩ | ⟨.sessionRecvfrom _ _,_⟩ | ⟨.epollCreate,_⟩ | ⟨.epollWait _ _ _,_⟩
  | ⟨.mqEpollFd,_⟩ | ⟨.asyncFd _,_⟩ | ⟨.instantNow,_⟩ | ⟨.sleep _,_⟩ | ⟨.genRange _ _,_⟩
  | ⟨.registeredGet,_⟩ | ⟨.registeredSet,_⟩ | ⟨.registerLock,_⟩ | ⟨.registerUnlock,_⟩
  | ⟨.waitersEntry _ _,_⟩ | ⟨.waitersRemove _ _,_⟩ | ⟨.notifyOne _ _,_⟩ | ⟨.notifyEvery _,_⟩
  | ⟨.clearReady _,_⟩ | ⟨.waitPoll _ _,_⟩ | ⟨.spawnBlocking,_⟩ | ⟨.joinBlocking,_⟩ | ⟨.taskSpawn,_⟩
  | ⟨.taskJoin _,_⟩ | ⟨.barrierWait,_⟩
  | ⟨.epollCtl _ .del _ _,_⟩ | ⟨.sessionAttr _ .getPeerAddr,_⟩
  | ⟨.sessionAttr _ (.setTcpNodelay _),_⟩ => isTrue trivial

def aroundReactor (r : VclReactor) (meets : Job → Ev → Prop) :
    System Call Reply Job (Thread × Obj) :=
  world (fun api => api.tends = some r) (fun _ k e => meets k e ∧ r.vep ∉ obtained e)

def Job.care (r : VclReactor) (k : Job) : Care where
  vep := r.vep
  lent sh := ∃ o ∈ k.api.lends, sh ∈ o.handles
  rely := Clean r k

variable {r : VclReactor} {k : Job}

theorem care_admits : (k.care r).Admits := fun _ _ _ h => h rfl

theorem care_answers (hk : k.api.binding = true) : (k.care r).Answers := by
  rintro ⟨op,reply⟩ h
  cases op <;> first
    | rfl
    | skip
  case sessionAttr sh op =>
    cases op <;> first
      | rfl
      | exact if_neg (h hk)

theorem care_completes (hk : k.api.connecting = true) : (k.care r).Completes := by
  refine ⟨?_,?_,?_⟩
  · intro sh ep rc h
    exact h
  · intro v n t x h
    exact h hk
  · intro n x h
    exact h hk

theorem care_unblocks : (k.care r).Unblocks := fun _ _ _ h => h

def Tended (os : Multiset (Thread × Obj)) (s : Tending) : Prop := s.owed = handlesOf os

omit [Platform] in
theorem tended_zero {os : Multiset (Thread × Obj)} (h : handlesOf os = 0) :
    Tended os (.bare 0) := h.symm

theorem method_tended {vep sh : Handle} (hm : k.api.method = some (vep,sh)) (hv : vep = r.vep) :
    (k.care r).contract.wp (yielding k.home k.api.call) Tended (.bare 0) := by
  obtain ⟨α,x,hx,hcalls⟩ := method_calls hm
  obtain ⟨o,ho,hsh⟩ := method_lends hm
  subst hv
  rw [hx,wp_serving]
  exact Care.serves_wpe (c := k.care r) ⟨o,ho,hsh⟩ rfl hcalls (fun _ => tended_zero rfl)
    (fun _ => tended_zero rfl)

theorem drop_tended {sh : Handle} {home : Thread} : (k.care r).contract.wp
    (yielding home (serving (do
      r.deregister sh
      dropSession sh))) Tended (.full {sh}) := by
  rw [wp_serving]
  exact Care.drop_wpe rfl (tended_zero rfl)

theorem tick_tended {home : Thread} : (k.care r).contract.wp (yielding home (serving r.tick)) Tended
    (.bare 0) := by
  rw [wp_serving,VclReactor.tick,Contract.wpe_bind]
  apply Care.drainEvents_wpe
  exact Care.idle_call (by trivial) (fun _ => tended_zero rfl)

theorem giving_tended {α : Type} {x : Vcl α} {f : α → Obj} {home : Thread}
    (h : (k.care r).contract.wpe x (fun a s => s.owed = (f a).handles)
      (fun _ s => s.owed = 0) (.bare 0)) :
    (k.care r).contract.wp (yielding home (giving x f)) Tended (.bare 0) := by
  rw [wp_giving]
  apply Contract.wpe_mono _ h
  · intro a s hs
    rw [Tended,handlesOf,Multiset.map_singleton,Multiset.sum_singleton]
    exact hs
  · intro e s hs
    exact hs

theorem obtaining_tended (hm : k.api.method = none)
    (ht : handlesOf (k.api.takes.map (Prod.mk k.home)) = 0) (hk : k.api.tends = some r) :
    (k.care r).contract.wp (yielding k.home k.api.call) Tended (.bare 0) := by
  obtain ⟨api,home⟩ := k
  cases api
  case reactorClone r' =>
    rw [wp_yielding]
    exact tended_zero rfl
  case reactorDrop r' =>
    rw [wp_yielding]
    exact tended_zero rfl
  case tick r' =>
    cases hk
    exact tick_tended
  case listenerBind addr r' =>
    cases hk
    apply giving_tended
    exact Care.listener_bind_wpe rfl care_admits (care_answers rfl) (fun _ _ hs => hs) (fun _ => rfl)
  case listenerAccept l =>
    cases hk
    have hl : ∃ o ∈ (Api.listenerAccept l).lends, l.handle ∈ o.handles :=
      ⟨.listener l,by simp [Api.lends],by simp [Obj.handles]⟩
    apply giving_tended
    exact Care.accept_wpe rfl hl care_admits care_unblocks (fun _ _ hs => hs) (fun _ => rfl)
  case streamConnectAsync addr source r' timeout =>
    cases hk
    apply giving_tended
    exact Care.connectAsync_wpe rfl care_admits (care_completes rfl) (fun _ _ hs => hs) (fun _ => rfl)
  case dgramBind addr r' =>
    cases hk
    apply giving_tended
    exact Care.dgram_bind_wpe rfl care_admits (care_answers rfl) (fun _ _ hs => hs) (fun _ => rfl)
  case dgramBindEphemeralV4 r' =>
    cases hk
    apply giving_tended
    exact Care.bindAttempts_wpe rfl care_admits (care_answers rfl) (fun _ _ hs => hs) (fun _ => rfl)
  case dgramBindEphemeralV6 r' =>
    cases hk
    apply giving_tended
    exact Care.bindAttempts_wpe rfl care_admits (care_answers rfl) (fun _ _ hs => hs) (fun _ => rfl)
  case listenerDrop l => exact absurd ht (Multiset.singleton_ne_zero l.handle)
  case streamDrop st => exact absurd ht (Multiset.singleton_ne_zero st.handle)
  case dgramDrop d => exact absurd ht (Multiset.singleton_ne_zero d.handle)
  all_goals first
    | (cases hm; done)
    | cases hk

theorem around_keeps (hk : k.api.tends = some r) :
    (k.care r).contract.wp (yielding k.home k.api.call) Tended
      (.full (handlesOf (k.api.takes.map (Prod.mk k.home)))) := by
  by_cases ht : handlesOf (k.api.takes.map (Prod.mk k.home)) = 0
  · rw [ht]
    cases hm : k.api.method with
    | some m =>
      have hv : m.1 = r.vep := by
        obtain ⟨api,home⟩ := k
        cases api <;> cases hm <;> cases hk <;> rfl
      exact method_tended hm hv
    | none => exact obtaining_tended hm ht hk
  · obtain ⟨api,home⟩ := k
    cases api
    case listenerDrop l =>
      cases hk
      exact drop_tended
    case streamDrop st =>
      cases hk
      exact drop_tended
    case dgramDrop d =>
      cases hk
      exact drop_tended
    all_goals first
      | exact absurd rfl ht
      | cases hk

def tended (r : VclReactor) : Accord (aroundReactor r (Clean r)) Tending where
  contract k := (k.care r).contract
  init k := .full (handlesOf (k.api.takes.map (Prod.mk k.home)))
  post _ := Tended
  keeps _ := around_keeps
  relies _ _ _ _ h := h

omit [Platform] in
theorem released_cases (e : Ev) : released e = 0 ∨ ∃ sh, released e = {sh} := by
  obtain ⟨op,reply⟩ := e
  cases op <;> first
    | exact .inl rfl
    | exact .inr ⟨_,rfl⟩

omit [Platform] in
theorem released_owed {c : Care} {s : Tending} {e : Ev} (h : c.contract.guar s e) :
    released e ≤ s.owed := by
  rcases released_cases e with hz | ⟨sh,hsh⟩
  · rw [hz]
    exact Multiset.zero_le _
  · rw [hsh,Multiset.singleton_le]
    exact (h.1 sh hsh).1

omit [Platform] in
theorem marked_stays {c : Care} {s : Tending} {e : Ev} {T : Table} {sh : Handle}
    (h : c.contract.guar s e) (hs : sh ∈ s.marks T) :
    sh ∈ s.owed - released e + obtained e := by
  refine Multiset.mem_add.mpr (.inl ?_)
  have howed := s.marked_owed T sh hs
  rcases released_cases e with hz | ⟨x,hx⟩
  · rw [hz,tsub_zero]
    exact howed
  · have hne : sh ≠ x := by
      rintro rfl
      exact (h.1 sh hx).2 T hs
    rw [hx,Multiset.sub_singleton]
    exact (Multiset.mem_erase_of_ne hne).mpr howed

omit [Platform] in
theorem mark_neutral {vep sh : Handle} {T : Table} {e : Ev} (h : T.mark vep e.op = .set sh) :
    released e = 0 := by
  obtain ⟨op,reply⟩ := e
  cases T <;> cases op <;> first
    | rfl
    | exact nomatch h

def standing (r : VclReactor) (T : Table) : (tended r).Watch Handle where
  mark e := T.mark r.vep e.op
  mine s sh := sh ∈ s.marks T
  theirs x sh := sh ∈ x.2.handles
  start _ _ x hx _ hsh := Multiset.mem_toFinset.mpr (mem_handlesOf.mpr ⟨x,hx,hsh⟩)
  sets k s e sh hg hm := by
    rcases hg.2 T sh hm with ho | ⟨o,ho,hsh⟩
    · refine .inl (Finset.mem_filter.mpr ⟨Mark.mem_apply.mpr (.inl hm),?_⟩)
      rw [mark_neutral hm,tsub_zero]
      exact Multiset.mem_add.mpr (.inl ho)
    · exact .inr ⟨(k.home,o),Multiset.mem_map_of_mem _ ho,hsh⟩
  keeps k s e sh hg hu hs :=
    Finset.mem_filter.mpr ⟨Mark.mem_apply.mpr (.inr ⟨hs,hu⟩),marked_stays hg hs⟩
  finish k os s sh hp hs := by
    have howed := s.marked_owed T sh hs
    rw [hp] at howed
    exact mem_handlesOf.mp howed

def possessions (r : VclReactor) : (tended r).Book (Multiset Handle) where
  hold s := s.owed
  worth x := x.2.handles
  gain x := obtained x.event
  loss x := released x.event
  rel := (· = ·)
  rel_refl _ := rfl
  rel_trans _ _ _ := Eq.trans
  rel_add _ _ _ h := by rw [h]
  start _ _ := rfl
  act k past e h := by
    let s := (tended r).state k past
    change s.owed - released e + obtained e + released e = s.owed + obtained e
    rw [add_right_comm,tsub_add_cancel_of_le (released_owed h)]
  finish _ _ _ h := h.symm

theorem possessed_open {objects : Multiset (Thread × Obj)}
    {p : Pool Call Reply Job (Thread × Obj)} (ho : ∀ x ∈ objects, x.2.handles = 0)
    (h : (aroundReactor r (Clean r)).Reach objects p) :
    (possessions r).total p = opened (events p.log) - closed (events p.log) := by
  have hc : (possessions r).total p + (possessions r).losses p.log =
      (objects.map (possessions r).worth).sum + (possessions r).gains p.log :=
    (possessions r).conserved h
  have hz : (objects.map (possessions r).worth).sum = 0 := by
    apply Multiset.sum_eq_zero
    intro m hm
    obtain ⟨x,hx,rfl⟩ := Multiset.mem_map.mp hm
    exact ho x hx
  have hl : (possessions r).losses p.log = closed (events p.log) := by
    rw [closed,events,List.map_map]
    rfl
  have hg : (possessions r).gains p.log = opened (events p.log) := by
    rw [opened,events,List.map_map]
    rfl
  rw [hz,zero_add,hl,hg] at hc
  rw [← hc,add_tsub_cancel_right]

theorem accounted_possessed {p : Pool Call Reply Job (Thread × Obj)} {T : Table} {sh : Handle}
    (h : (standing r T).Accounts p sh) : sh ∈ (possessions r).total p := by
  rcases h with ⟨t,ht,hm⟩ | ⟨x,hx,hm⟩
  · have howed := ((tended r).ghost t).marked_owed T sh hm
    exact Multiset.mem_add.mpr (.inl (Multiset.mem_bind.mpr ⟨t,ht,howed⟩))
  · exact Multiset.mem_add.mpr (.inr (mem_handlesOf.mpr ⟨x,hx,hm⟩))

theorem recorded_open (r : VclReactor) (objects : Multiset (Thread × Obj))
    (p : Pool Call Reply Job (Thread × Obj)) (ho : ∀ x ∈ objects, x.2.handles = 0)
    (h : (aroundReactor r (Clean r)).Reach objects p) (T : Table) (sh : Handle)
    (hsh : sh ∈ recorded (fun e : Ev => T.mark r.vep e.op) (events p.log)) :
    sh ∈ opened (events p.log) - closed (events p.log) := by
  rw [recorded,events,List.foldl_map] at hsh
  have hacc : (standing r T).Accounts p sh := Accord.Watch.accounted h sh hsh
  rw [← possessed_open ho h]
  exact accounted_possessed hacc

end Tending

def dialling : Job := ⟨.streamConnectAsync (.new .unspecifiedV4 53) none ⟨9⟩ 5,0⟩

theorem connectAsync_recorded_open : ∃ p, (@aroundReactor host ⟨9⟩ (@Clean host ⟨9⟩)).Reach
    {(0,.reactor ⟨9⟩)} p ∧ recorded (fun e : Ev => Table.waiters.mark 9 e.op) (events p.log) = {1} ∧
      1 ∈ opened (events p.log) - closed (events p.log) := by
  have h₀ : (@aroundReactor host ⟨9⟩ (@Clean host ⟨9⟩)).Reach {(0,.reactor ⟨9⟩)}
    ⟨0,{(0,.reactor ⟨9⟩)},[]⟩ := .refl
  have h := world_call h₀ dialling {.stream ⟨1,⟨9⟩⟩} 0 (fun _ => obliging) rfl rfl (by decide)
    (by decide +kernel) (by decide +kernel)
  refine ⟨_,h,by decide +kernel,?_⟩
  exact @recorded_open host ⟨9⟩ _ _ (by simp [Obj.handles]) h .waiters 1 (by decide +kernel)

def expiring (_ : ℕ) (c : Call) : Reply c :=
  match c with
  | .select _ _ _ => ((5 : ℕ),.elapsed)
  | c => obliging c

theorem timed_out_connect_recorded : ∃ p,
    (@aroundReactor host ⟨9⟩ (fun _ _ => True)).Reach {(0,.reactor ⟨9⟩)} p ∧ p.tasks = 0 ∧
      (∀ T : Table, 1 ∈ recorded (fun e : Ev => T.mark 9 e.op) (events p.log)) ∧
      closed (events p.log) = {1} ∧ 1 ∉ opened (events p.log) - closed (events p.log) := by
  have h₀ : (@aroundReactor host ⟨9⟩ (fun _ _ => True)).Reach {(0,.reactor ⟨9⟩)}
    ⟨0,{(0,.reactor ⟨9⟩)},[]⟩ := .refl
  have h := world_call h₀ dialling 0 0 expiring rfl rfl (by decide) (by decide +kernel)
    (by decide +kernel)
  refine ⟨_,h,rfl,?_,by decide +kernel,by decide +kernel⟩
  intro T
  cases T <;> decide +kernel

end VclRs
