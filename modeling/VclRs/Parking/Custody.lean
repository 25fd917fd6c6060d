import VclRs.Custody.Charge
import VclRs.Parking.Registry

namespace VclRs

open Interaction Fallible

def Orderly (log : List Entry) : Prop :=
  ∀ i (h : i < log.length), ∀ sh ∈ released log[i].event,
    sh ∈ log[i].kind.grip log[i].past ∨ sh ∉ recorded lease (events (log.take i))

instance instDecidableOrderly (log : List Entry) : Decidable (Orderly log) :=
  @Nat.decidableBallLT log.length _ (fun i _ =>
    @Multiset.decidableForallMultiset Handle (released log[i].event) _ (fun sh =>
      inferInstanceAs (Decidable (sh ∈ log[i].kind.grip log[i].past ∨
        sh ∉ recorded lease (events (log.take i))))))

section Steps

variable {e : Ev}

theorem lease_released {sh : Handle} (h : lease e = .unset sh) : sh ∈ released e := by
  have hof {rc : Int} (h : leaseOf rc = .unset sh) : False := by
    rw [leaseOf] at h
    split_ifs at h
  obtain ⟨op,reply⟩ := e
  cases op <;> first
    | exact (hof h).elim
    | cases h
  exact Multiset.mem_singleton_self _

theorem reseat_cases {w : Option Seat} {s : Seat} (h : reseat w e = some s) :
    (∃ vep sh n, e = ⟨.waitersEntry vep sh,n⟩ ∧ s = ⟨vep,sh,n⟩) ∨
      w = some s ∧ lease e = .keep ∧ ∀ vep sh, e.op ≠ .waitersRemove vep sh := by
  obtain ⟨op,reply⟩ := e
  cases op
  case waitersEntry vep sh =>
    cases h
    exact .inl ⟨vep,sh,reply,rfl,rfl⟩
  case select vep n t =>
    obtain ⟨now,sel⟩ := reply
    cases sel <;> first
      | exact .inr ⟨h,rfl,by rintro _ _ ⟨⟩⟩
      | cases h
  case recheck n =>
    obtain ⟨now,again⟩ := reply
    cases again <;> first
      | exact .inr ⟨h,rfl,by rintro _ _ ⟨⟩⟩
      | cases h
  all_goals first
    | exact .inr ⟨h,rfl,by rintro _ _ ⟨⟩⟩
    | cases h

end Steps

section Refusals

variable [Platform] {p : Pool Call Reply Job (Thread × Obj)}

def Unrefused (k : Job) (e : Ev) : Prop := k.api.binding = true → refused e = 0

def Job.till (k : Job) : Terms Handle :=
  Terms.byNumber k.home (fun sh => ∃ o ∈ k.api.lends, sh ∈ o.handles) false (Unrefused k)

omit [Platform] in
theorem till_suits (k : Job) : k.till.Suits k :=
  ⟨rfl,fun o ho _ hsh => ⟨o,ho,hsh⟩,rfl,fun hb => .inr (fun _ h => h hb),
    fun _ => .inl (fun _ _ => rfl)⟩

def tilled : Accord (station.narrow Unrefused) (Holding Thread Handle) where
  contract k := k.till.custody
  init k := ⟨k.home,k.till.charge (k.api.takes.map (Prod.mk k.home))⟩
  post k := k.till.Charged
  keeps k _ := Terms.call_charged (till_suits k)
  relies _ _ _ _ h := h.2

omit [Platform] in
theorem till_next (k : Job) (s : Holding Thread Handle) (e : Ev) :
    (k.till.custody.next s e).owed = (lease e).grip s.owed := by
  have hopen (rc : Int) : s.owed + handleIf rc = (leaseOf rc).grip s.owed := by
    rw [handleIf,leaseOf]
    split_ifs with hneg
    · exact add_zero _
    · rw [add_comm]
      exact Multiset.singleton_add _ _
  change s.owed - (released e).map (fun sh => sh) + (obtained e + 0).map (fun sh => sh) = _
  rw [Multiset.map_id',Multiset.map_id',add_zero]
  obtain ⟨op,reply⟩ := e
  cases op <;> simp [released,obtained,lease,Mark.grip,hopen,Multiset.sub_singleton]

theorem tilled_grip (k : Job) (past : List Ev) : (tilled.state k past).owed = k.grip past := by
  have hafter (s : Holding Thread Handle) : (k.till.custody.after s past).owed =
      past.foldl (fun K e => (lease e).grip K) s.owed := by
    induction past generalizing s with
    | nil => rfl
    | cons e past ih => rw [Contract.after_cons,ih,till_next,List.foldl_cons]
  have hstart : k.till.charge (k.api.takes.map (Prod.mk k.home)) =
      handlesOf (k.api.takes.map (Prod.mk k.home)) := by
    simp [Terms.charge,handlesOf,Job.till,Terms.byNumber]
  rw [Job.grip,← hstart]
  exact hafter _

theorem unrefused_orderly (h : station.Reach 0 p) (ha : ∀ x ∈ p.log, Unrefused x.kind x.event) :
    Orderly p.log := by
  intro i hi sh hsh
  have hlog : p.log = p.log.take i ++ p.log[i] :: p.log.drop (i + 1) := by simp
  obtain ⟨_,_,_,_,hreach,hstep,hadm⟩ := System.reach_record (System.reach_narrow h ha) hlog
  have hsound := tilled.sound_reach hreach _ (Multiset.mem_cons_self _ _)
  have hle : (released p.log[i].event).map (fun sh => sh) ≤
      (tilled.state p.log[i].kind p.log[i].past).owed := (tilled.sound_act hsound hstep hadm).1.1
  rw [Multiset.map_id',tilled_grip] at hle
  exact .inl (Multiset.mem_of_le hle hsh)

end Refusals

section Invariant

variable [Platform] {p : Pool Call Reply Job (Thread × Obj)}

theorem live_events (log : List Entry) : occupancy.live log = recorded lease (events log) := by
  rw [Accord.Estate.live,recorded,recorded,events,List.foldl_map]
  rfl

theorem regular_log (h : station.Reach 0 p) (ho : Orderly p.log) :
    ∀ pre x, pre ++ [x] <+: p.log → occupancy.Regular pre x := by
  rintro pre x ⟨post,hpost⟩
  have hlog : p.log = pre ++ x :: post := by rw [← hpost,List.append_assoc,List.singleton_append]
  obtain ⟨_,_,_,_,-,-,ha⟩ := System.reach_record h hlog
  constructor
  · intro sh hsh
    rw [live_events]
    exact ha.1 sh (lease_obtained hsh)
  · intro sh hsh
    have hlt : pre.length < p.log.length := by
      rw [hlog,List.length_append,List.length_cons]
      omega
    have hget : p.log[pre.length] = x := by simp [hlog]
    have htake : p.log.take pre.length = pre := by simp [hlog]
    have hclose := ho pre.length hlt sh
    rw [hget,htake] at hclose
    rw [live_events]
    change sh ∈ (manned.state x.kind x.past).1 ∨ _
    rw [manned_grip]
    exact hclose (lease_released hsh)

theorem sole_tenants (h : station.Reach 0 p) (ho : Orderly p.log) :
    occupancy.total p ≤ (occupancy.live p.log).val :=
  Accord.Estate.sole h rfl (regular_log h ho)

omit [Platform] in
theorem orderly_prefix {log : List Entry} {x : Entry} (h : Orderly (log ++ [x])) : Orderly log := by
  intro i hi sh hsh
  have hlt : i < (log ++ [x]).length := by
    rw [List.length_append]
    omega
  have hget : (log ++ [x])[i] = log[i] := List.getElem_append_left hi
  have htake : (log ++ [x]).take i = log.take i := List.take_append_of_le_length hi.le
  have hwhole := h i hlt sh
  rw [hget,htake] at hwhole
  exact hwhole hsh

omit [Platform] in
theorem seat_lent {api : Api} {vep sh : Handle} (h : api.seat = some (vep,sh)) :
    ∃ o ∈ api.lends, sh ∈ o.handles := by
  cases api
  case listenerAccept l =>
    cases h
    exact ⟨_,Multiset.mem_singleton_self _,Multiset.mem_singleton_self _⟩
  all_goals exact method_lends h

structure Enrolled (p : Pool Call Reply Job (Thread × Obj)) : Prop where
  held : ∀ t ∈ p.tasks, ∀ w, (manned.ghost t).2 = some w →
    w.session ∈ (manned.ghost t).1 ∨ t.kind.api.seat = some (w.vep,w.session)
  seats : ∀ t ∈ p.tasks, ∀ w, (manned.ghost t).2 = some w →
    waiters (events p.log) (w.vep,w.session) = some w.notify
  slots : ∀ side st n, stored side st p.log = some n →
    waiters (events p.log) (st.reactor.vep,st.handle) = some n
  owners : ∀ side st n, stored side st p.log = some n →
    (∃ home, (home,.stream st) ∈ p.objects) ∨
      ∃ t ∈ p.tasks, t.kind.api = .streamDrop st ∧ t.past = []

section Act

variable {tasks : Multiset (Task Call Reply Job (Thread × Obj))} {objs : Multiset (Thread × Obj)}
variable {log : List Entry} {k : Job} {past : List Ev}
variable {q q' : Prog Call Reply (Multiset (Thread × Obj))} {e : Ev}

theorem removal_unwatched {sh : Handle}
    (hr : station.Reach 0 ⟨⟨k,past,q⟩ ::ₘ tasks,objs,log⟩) (ho : Orderly log)
    (hp : Enrolled ⟨⟨k,past,q⟩ ::ₘ tasks,objs,log⟩) (hown : sh ∈ (manned.state k past).1) :
    (∀ t ∈ tasks, ∀ w, (manned.ghost t).2 = some w → w.session ≠ sh) ∧
      ∀ side st n, stored side st log = some n → st.handle = sh → k.api = .streamDrop st := by
  obtain ⟨htasks,hobjs⟩ := Accord.Estate.excludes (T := occupancy) (t := ⟨k,past,q⟩)
    (sole_tenants hr ho) hown
  constructor
  · rintro t ht w hw rfl
    rcases hp.held t (Multiset.mem_cons_of_mem ht) w hw with hmine | hlent
    · exact htasks t ht hmine
    · obtain ⟨o,hmem,hsh⟩ := seat_lent hlent
      have hobj : (t.kind.home,o) ∈ objs := System.lent_present hr t (Multiset.mem_cons_of_mem ht) _
        (Multiset.mem_map_of_mem _ hmem)
      exact hobjs _ hobj hsh
  · rintro side st n hn rfl
    rcases hp.owners side st n hn with ⟨home,hobj⟩ | ⟨t,ht,hapi,hpast⟩
    · exact absurd (Multiset.mem_singleton_self st.handle) (hobjs _ hobj)
    · rcases Multiset.mem_cons.mp ht with rfl | ht
      · exact hapi
      · refine absurd ?_ (htasks t ht)
        change st.handle ∈ (manned.state t.kind t.past).1
        rw [hpast,manned_grip,Job.grip,List.foldl_nil,hapi]
        exact Multiset.mem_singleton_self st.handle

theorem stays_unless_removed {key : Handle × Handle} {n : NotifyId}
    (h : waiters (events log) key = some n) (ha : station.admits log k e)
    (hr : e.op ≠ .waitersRemove key.1 key.2) :
    waiters (events (log ++ [⟨k,past,e⟩])) key = some n := by
  rw [events_append]
  exact waiters_stay h ha.2 hr

theorem drop_removes {home : Thread} {st : VclStream}
    (h : Prog.Step (station.code ⟨.streamDrop st,home⟩) e q') :
    e.op = .waitersRemove st.reactor.vep st.handle := by
  cases h
  rfl

omit [Platform] in
theorem held_step {lent : Option (Handle × Handle)} {K : Multiset Handle} {w : Option Seat}
    (hg : (gripping lent).guar K e)
    (h : ∀ s, w = some s → s.session ∈ K ∨ lent = some (s.vep,s.session)) :
    ∀ s, reseat w e = some s → s.session ∈ (lease e).grip K ∨ lent = some (s.vep,s.session) := by
  intro s hs
  rcases reseat_cases hs with ⟨vep,sh,n,rfl,rfl⟩ | ⟨hw,hkeep,-⟩
  · cases lent with
    | none => exact .inl hg
    | some m =>
      obtain rfl : m = (vep,sh) := hg
      exact .inr rfl
  · rw [hkeep]
    exact h s hw

theorem seat_step {w : Option Seat} (ha : station.admits log k e)
    (h : ∀ s, w = some s → waiters (events log) (s.vep,s.session) = some s.notify) :
    ∀ s, reseat w e = some s →
      waiters (events (log ++ [⟨k,past,e⟩])) (s.vep,s.session) = some s.notify := by
  intro s hs
  rcases reseat_cases hs with ⟨vep,sh,n,rfl,rfl⟩ | ⟨hw,-,hnot⟩
  · rw [events_append]
    exact waiters_entered
  · exact stays_unless_removed (h s hw) ha (hnot _ _)

omit [Platform] in
theorem polls_seat {api : Api} {side : Side} {st : VclStream} (h : api.polls = some (side,st)) :
    api.seat = some (st.reactor.vep,st.handle) ∧ .stream st ∈ api.lends := by
  cases api <;> cases h
  · exact ⟨rfl,Multiset.mem_singleton_self _⟩
  · exact ⟨rfl,Multiset.mem_singleton_self _⟩

theorem slot_step {side : Side} {st : VclStream} {n : NotifyId} (ha : station.admits log k e)
    (hg : (gripping k.api.seat).guar (manned.state k past).1 e)
    (hslot : stored side st log = some n →
      waiters (events log) (st.reactor.vep,st.handle) = some n)
    (hfree : ∀ vep sh, e.op = .waitersRemove vep sh → stored side st log = some n →
      st.handle = sh → k.api = .streamDrop st)
    (h : stored side st (log ++ [⟨k,past,e⟩]) = some n) :
    waiters (events (log ++ [⟨k,past,e⟩])) (st.reactor.vep,st.handle) = some n := by
  rcases stored_cases h with ⟨vep,sh,he,hpolls⟩ | ⟨hold,hkept⟩
  · obtain rfl : e = ⟨.waitersEntry vep sh,n⟩ := he
    have hentry : k.api.seat.elim (sh ∈ (manned.state k past).1) (· = (vep,sh)) := hg
    rw [(polls_seat hpolls).1] at hentry
    obtain ⟨rfl,rfl⟩ := Prod.mk.inj hentry
    rw [events_append]
    exact waiters_entered
  · refine stays_unless_removed (hslot hold) ha ?_
    intro hop
    exact hkept _ _ hop (hfree _ _ hop hold rfl)

theorem owner_step {side : Side} {st : VclStream} {n : NotifyId}
    (hr : station.Reach 0 ⟨⟨k,past,q⟩ ::ₘ tasks,objs,log⟩) (hs : Prog.Step q e q')
    (hp : Enrolled ⟨⟨k,past,q⟩ ::ₘ tasks,objs,log⟩)
    (h : stored side st (log ++ [⟨k,past,e⟩]) = some n) :
    (∃ home, (home,.stream st) ∈ objs) ∨
      ∃ t ∈ ⟨k,past ++ [e],q'⟩ ::ₘ tasks, t.kind.api = .streamDrop st ∧ t.past = [] := by
  rcases stored_cases h with ⟨vep,sh,he,hpolls⟩ | ⟨hold,hkept⟩
  · have hobj : (k.home,Obj.stream st) ∈ objs := System.lent_present hr _
      (Multiset.mem_cons_self _ _) _ (Multiset.mem_map_of_mem _ (polls_seat hpolls).2)
    exact .inl ⟨k.home,hobj⟩
  · rcases hp.owners side st n hold with hobj | ⟨t,ht,hapi,hpast⟩
    · exact .inl hobj
    · rcases Multiset.mem_cons.mp ht with rfl | hrest
      · have hcode : q = station.code k := System.fresh_code hr _ (Multiset.mem_cons_self _ _) hpast
        obtain ⟨api,home⟩ := k
        obtain rfl : api = .streamDrop st := hapi
        rw [hcode] at hs
        exact absurd rfl (hkept _ _ (drop_removes hs))
      · exact .inr ⟨t,Multiset.mem_cons_of_mem hrest,hapi,hpast⟩

theorem enrolled_act (hr : station.Reach 0 ⟨⟨k,past,q⟩ ::ₘ tasks,objs,log⟩)
    (ho : Orderly log) (hs : Prog.Step q e q') (ha : station.admits log k e)
    (hp : Enrolled ⟨⟨k,past,q⟩ ::ₘ tasks,objs,log⟩) :
    Enrolled ⟨⟨k,past ++ [e],q'⟩ ::ₘ tasks,objs,log ++ [⟨k,past,e⟩]⟩ := by
  have hsound := manned.sound_reach hr _ (Multiset.mem_cons_self _ _)
  obtain ⟨⟨hgrip,-⟩,-⟩ := manned.sound_act hsound hs ha
  have hghost := manned.ghost_act k past e q q'
  have hfree (vep sh : Handle) (hop : e.op = .waitersRemove vep sh) := by
    have hown : sh ∈ (manned.state k past).1 := by
      obtain ⟨op,reply⟩ := e
      cases hop
      exact hgrip
    exact removal_unwatched hr ho hp hown
  constructor
  · intro t ht w hw
    rcases Multiset.mem_cons.mp ht with rfl | ht
    · rw [hghost] at hw ⊢
      exact held_step hgrip (hp.held _ (Multiset.mem_cons_self _ _)) w hw
    · exact hp.held t (Multiset.mem_cons_of_mem ht) w hw
  · intro t ht w hw
    rcases Multiset.mem_cons.mp ht with rfl | ht
    · rw [hghost] at hw
      exact seat_step ha (hp.seats _ (Multiset.mem_cons_self _ _)) w hw
    · refine stays_unless_removed (hp.seats t (Multiset.mem_cons_of_mem ht) w hw) ha ?_
      intro hop
      exact (hfree _ _ hop).1 t ht w hw rfl
  · intro side st n hn
    exact slot_step ha hgrip (hp.slots side st n) (fun vep sh hop => (hfree vep sh hop).2 side st n) hn
  · intro side st n hn
    exact owner_step hr hs hp hn

end Act

omit [Platform] in
theorem takes_stream {api : Api} {st : VclStream} (h : .stream st ∈ api.takes) :
    api = .streamDrop st := by
  cases api <;> first
    | exact absurd h (Multiset.notMem_zero _)
    | cases Multiset.mem_singleton.mp h
  rfl

theorem enrolled_start {tasks : Multiset (Task Call Reply Job (Thread × Obj))}
    {rest : Multiset (Thread × Obj)} {log : List Entry} (k : Job)
    (hp : Enrolled ⟨tasks,station.takes k + rest,log⟩) :
    Enrolled ⟨⟨k,[],station.code k⟩ ::ₘ tasks,rest,log⟩ := by
  constructor
  · intro t ht w hw
    rcases Multiset.mem_cons.mp ht with rfl | ht
    · cases hw
    · exact hp.held t ht w hw
  · intro t ht w hw
    rcases Multiset.mem_cons.mp ht with rfl | ht
    · cases hw
    · exact hp.seats t ht w hw
  · exact hp.slots
  · intro side st n hn
    rcases hp.owners side st n hn with ⟨home,hobj⟩ | ⟨t,ht,hapi,hpast⟩
    · rcases Multiset.mem_add.mp hobj with htaken | hrest
      · obtain ⟨o,hmem,heq⟩ := Multiset.mem_map.mp htaken
        cases heq
        exact .inr ⟨_,Multiset.mem_cons_self _ _,takes_stream hmem,rfl⟩
      · exact .inl ⟨home,hrest⟩
    · exact .inr ⟨t,Multiset.mem_cons_of_mem ht,hapi,hpast⟩

theorem enrolled_finish {tasks : Multiset (Task Call Reply Job (Thread × Obj))}
    {objs os : Multiset (Thread × Obj)} {log : List Entry} {k : Job} {past : List Ev}
    {q : Prog Call Reply (Multiset (Thread × Obj))}
    (hr : station.Reach 0 ⟨⟨k,past,q⟩ ::ₘ tasks,objs,log⟩) (hret : Prog.Returns q os)
    (hp : Enrolled ⟨⟨k,past,q⟩ ::ₘ tasks,objs,log⟩) : Enrolled ⟨tasks,os + objs,log⟩ := by
  constructor
  · intro t ht
    exact hp.held t (Multiset.mem_cons_of_mem ht)
  · intro t ht
    exact hp.seats t (Multiset.mem_cons_of_mem ht)
  · exact hp.slots
  · intro side st n hn
    rcases hp.owners side st n hn with ⟨home,hobj⟩ | ⟨t,ht,hapi,hpast⟩
    · exact .inl ⟨home,Multiset.mem_add.mpr (.inr hobj)⟩
    · rcases Multiset.mem_cons.mp ht with rfl | hrest
      · have hcode : q = station.code k := System.fresh_code hr _ (Multiset.mem_cons_self _ _) hpast
        obtain ⟨api,home⟩ := k
        obtain rfl : api = .streamDrop st := hapi
        rw [hcode] at hret
        cases hret
      · exact .inr ⟨t,hrest,hapi,hpast⟩

theorem enrolled_reach (h : station.Reach 0 p) (ho : Orderly p.log) : Enrolled p := by
  induction h with
  | refl =>
    constructor
    · simp
    · simp
    · rintro side st n ⟨⟩
    · rintro side st n ⟨⟩
  | tail hr hs ih =>
    cases hs with
    | start k hk hl hf => exact enrolled_start k (ih ho)
    | act hstep ha =>
      have hprev := orderly_prefix ho
      exact enrolled_act hr hprev hstep ha (ih hprev)
    | finish hret => exact enrolled_finish hr hret (ih ho)

end Invariant

end VclRs
