import VclRs.Interaction.Facing
import VclRs.Exchange
import VclRs.Strays

namespace VclRs

open Interaction Fallible

def readings (tr : List Ev) : ℕ := tr.countP (fun e => (reading e).isSome)

structure Surroundings where
  answer : List Ev → (c : Call) → Reply c
  clock : ℕ → Instant
  steady : Monotone clock
  ticks : ∀ past, answer past .instantNow = clock (readings past)
  writes : ∀ past sh buf (rc : Int), answer past (.sessionWrite sh buf) = rc → buf ≠ [] → 0 ≤ rc →
    1 ≤ rc ∧ rc ≤ buf.length
  reads : ∀ past sh n (rc : Int) data, answer past (.sessionRead sh n) = (rc,data) → rc ≤ n

def Surroundings.due (env : Surroundings) (timeout : Duration) : Instant := env.clock 0 + timeout

def Surroundings.Reaches (env : Surroundings) (timeout : Duration) : Prop :=
  ∃ n, env.due timeout ≤ env.clock n

def Expired (timeout : Duration) (past : List Ev) : Prop :=
  ∃ x ∈ histories past, ∃ due now, deadlineOf timeout x.1 = some due ∧ reading x.2 = some now ∧
    due ≤ now

def writing : Call → Bool
  | .sessionWrite _ _ => true
  | _ => false

def lateWrites (due : Instant) (tr : List Stamped) : ℕ :=
  tr.countP (fun x => decide (due ≤ x.1) && writing x.2.op)

def wrote : Ev → ℕ
  | ⟨.sessionWrite _ _,rc⟩ => Int.toNat rc
  | _ => 0

def fetched : Ev → ℕ
  | ⟨.sessionRead _ _,(rc,_)⟩ => Int.toNat rc
  | _ => 0

def sentBy (tr : List Ev) : ℕ := (tr.map wrote).sum

def gotBy (tr : List Ev) : ℕ := (tr.map fetched).sum

def Sliced (framed : List UInt8) (len : ℕ) (past : List Ev) : Call → Prop
  | .sessionWrite _ buf => sentBy past ≤ framed.length ∧ buf = framed.drop (sentBy past)
  | .sessionRead _ n => gotBy past ≤ 2 ∧ n = 2 - gotBy past ∧ 0 < n ∨
    2 ≤ gotBy past ∧ gotBy past - 2 ≤ len ∧ n = len - (gotBy past - 2) ∧ 0 < n
  | _ => True

structure Restrained (timeout : Duration) (query : List UInt8) (tr : List Ev) : Prop where
  stops : ∀ x ∈ histories tr, Expired timeout x.1 → Quiet x.2.op
  late : ∀ due str, deadlineOf timeout tr = some due → Clocked str → str.map Prod.snd = tr →
    lateWrites due str ≤ 2 + query.length
  inBounds : ∃ len, ∀ x ∈ histories tr, Sliced (toBeBytes query.length ++ query) len x.1 x.2.op

def Idle (c : Call) : Prop := Quiet c ∧ c ≠ .instantNow

section Traces

variable {timeout : Duration} {past : List Ev} {e : Ev} {due : Instant} {framed : List UInt8} {len : ℕ}

theorem sentBy_concat (past : List Ev) (e : Ev) : sentBy (past ++ [e]) = sentBy past + wrote e := by
  simp [sentBy]

theorem gotBy_concat (past : List Ev) (e : Ev) : gotBy (past ++ [e]) = gotBy past + fetched e := by
  simp [gotBy]

theorem readings_concat (past : List Ev) (e : Ev) :
    readings (past ++ [e]) = readings past + if (reading e).isSome then 1 else 0 := by
  rw [readings,List.countP_append,List.countP_singleton]
  rfl

theorem expired_concat : Expired timeout (past ++ [e]) ↔ Expired timeout past ∨
    ∃ due now, deadlineOf timeout past = some due ∧ reading e = some now ∧ due ≤ now := by
  simp only [Expired,histories_concat,List.mem_append,List.mem_singleton,or_and_right,exists_or,
    exists_eq_left]

theorem quiet_wrote (h : Quiet e.op) : wrote e = 0 := by
  obtain ⟨op,reply⟩ := e
  cases op <;> first | rfl | exact h.elim

theorem quiet_fetched (h : Quiet e.op) : fetched e = 0 := by
  obtain ⟨op,reply⟩ := e
  cases op <;> first | rfl | exact h.elim

theorem quiet_writing {c : Call} (h : Quiet c) : writing c = false := by
  cases c <;> first | rfl | exact h.elim

theorem quiet_sliced {c : Call} (h : Quiet c) : Sliced framed len past c := by
  cases c <;> trivial

theorem idle_reading (h : Idle e.op) : reading e = none := by
  obtain ⟨op,reply⟩ := e
  cases op <;> first | rfl | exact (h.2 rfl).elim

def LateAtMost (due : Instant) (past : List Ev) (k : ℕ) : Prop :=
  ∀ str, Clocked str → str.map Prod.snd = past → lateWrites due str ≤ k

theorem clocked_concat {str : List Stamped} {x : Stamped} (h : Clocked (str ++ [x])) :
    Clocked str ∧ ∀ y ∈ str, y.1 ≤ x.1 := by
  obtain ⟨hmono,hfaith⟩ := h
  rw [List.map_append,List.pairwise_append] at hmono
  refine ⟨⟨hmono.1,fun y hy => hfaith y (List.mem_append_left _ hy)⟩,?_⟩
  intro y hy
  exact hmono.2.2 y.1 (List.mem_map_of_mem hy) x.1 (List.mem_singleton_self _)

theorem stamped_concat {str : List Stamped} (h : str.map Prod.snd = past ++ [e]) :
    ∃ str' t, str = str' ++ [(t,e)] ∧ str'.map Prod.snd = past := by
  obtain ⟨str',xs,rfl,hpast,hx⟩ := List.map_eq_append_iff.mp h
  obtain ⟨⟨t,e'⟩,rfl,rfl⟩ := List.map_eq_singleton_iff.mp hx
  exact ⟨str',t,rfl,hpast⟩

theorem lateWrites_concat (due : Instant) (str : List Stamped) (x : Stamped) :
    lateWrites due (str ++ [x]) =
      lateWrites due str + if decide (due ≤ x.1) && writing x.2.op then 1 else 0 := by
  rw [lateWrites,List.countP_append,List.countP_singleton]
  rfl

theorem LateAtMost.mono {k k' : ℕ} (h : LateAtMost due past k) (hk : k ≤ k') :
    LateAtMost due past k' := by
  intro str hc hs
  exact (h str hc hs).trans hk

theorem LateAtMost.other {k : ℕ} (h : LateAtMost due past k) (he : writing e.op = false) :
    LateAtMost due (past ++ [e]) k := by
  intro str hc hs
  obtain ⟨str,t,rfl,hpast⟩ := stamped_concat hs
  have hk := h str (clocked_concat hc).1 hpast
  rw [lateWrites_concat,he,Bool.and_false]
  exact hk

theorem LateAtMost.write {k : ℕ} (h : LateAtMost due past k) (e : Ev) :
    LateAtMost due (past ++ [e]) (k + 1) := by
  intro str hc hs
  obtain ⟨str,t,rfl,hpast⟩ := stamped_concat hs
  have hk := h str (clocked_concat hc).1 hpast
  rw [lateWrites_concat]
  split_ifs <;> omega

theorem lateAtMost_early {now : Instant} (h : now < due) :
    LateAtMost due (past ++ [⟨.instantNow,now⟩]) 0 := by
  intro str hc hs
  obtain ⟨str,t,rfl,hpast⟩ := stamped_concat hs
  have ht : now = t := hc.faithful (t,⟨.instantNow,now⟩) (by simp) now rfl
  subst ht
  have hnone : lateWrites due str = 0 := by
    rw [lateWrites,List.countP_eq_zero]
    intro y hy
    have hle : y.1 ≤ now := (clocked_concat hc).2 y hy
    have hlate : ¬ due ≤ y.1 := not_le.mpr (lt_of_le_of_lt hle h)
    simp [hlate]
  rw [lateWrites_concat,hnone]
  simp [writing]

def Tidy (timeout : Duration) (framed : List UInt8) (S : Set ℕ) (past : List Ev) : Prop :=
  ∀ x ∈ histories past, (Expired timeout x.1 → Quiet x.2.op) ∧
    ∀ len ∈ S, Sliced framed len x.1 x.2.op

theorem tidy_concat {S : Set ℕ} : Tidy timeout framed S (past ++ [e]) ↔
    Tidy timeout framed S past ∧ (Expired timeout past → Quiet e.op) ∧
      ∀ len ∈ S, Sliced framed len past e.op := by
  simp only [Tidy,histories_concat,List.forall_mem_append,List.forall_mem_singleton]

end Traces

section Stages

variable (env : Surroundings) (timeout : Duration) (framed : List UInt8) (S : Set ℕ)

structure Midstream (sent late got : ℕ) (past : List Ev) : Prop where
  due : deadlineOf timeout past = some (env.due timeout)
  timely : ¬ Expired timeout past
  sent : sentBy past = sent
  got : gotBy past = got
  late : LateAtMost (env.due timeout) past late
  proper : Tidy timeout framed S past

structure Over (past : List Ev) : Prop where
  late : LateAtMost (env.due timeout) past framed.length
  proper : Tidy timeout framed S past

def Calm (past : List Ev) : Prop := ∀ e ∈ past, Idle e.op

variable {env timeout framed S} {sent late got : ℕ} {past : List Ev} {e : Ev}

theorem Midstream.over (h : Midstream env timeout framed S sent late got past) (hl : late ≤ framed.length) :
    Over env timeout framed S past :=
  ⟨h.late.mono hl,h.proper⟩

theorem Midstream.idle (h : Midstream env timeout framed S sent late got past) (he : Idle e.op) :
    Midstream env timeout framed S sent late got (past ++ [e]) := by
  refine ⟨deadlineOf_stays h.due e,?_,?_,?_,h.late.other (quiet_writing he.1),?_⟩
  · rw [expired_concat,idle_reading he]
    simp [h.timely]
  · rw [sentBy_concat,quiet_wrote he.1]
    exact h.sent
  · rw [gotBy_concat,quiet_fetched he.1]
    exact h.got
  · exact tidy_concat.mpr ⟨h.proper,fun _ => he.1,fun _ _ => quiet_sliced he.1⟩

theorem Midstream.check {now : Instant} (h : Midstream env timeout framed S sent late got past)
    (hnow : now < env.due timeout) :
    Midstream env timeout framed S sent 0 got (past ++ [⟨.instantNow,now⟩]) := by
  refine ⟨deadlineOf_stays h.due _,?_,?_,?_,lateAtMost_early hnow,?_⟩
  · rw [expired_concat,h.due]
    rintro (hx | ⟨due,now',hdue,hread,hle⟩)
    · exact h.timely hx
    · cases hdue
      cases hread
      exact absurd hnow (not_lt.mpr hle)
  · rw [sentBy_concat]
    exact h.sent
  · rw [gotBy_concat]
    exact h.got
  · exact tidy_concat.mpr ⟨h.proper,fun _ => trivial,fun _ _ => trivial⟩

theorem Midstream.transfer {late' : ℕ} (h : Midstream env timeout framed S sent late got past)
    (hr : reading e = none) (hl : LateAtMost (env.due timeout) (past ++ [e]) late')
    (hs : ∀ len ∈ S, Sliced framed len past e.op) :
    Midstream env timeout framed S (sent + wrote e) late' (got + fetched e) (past ++ [e]) := by
  refine ⟨deadlineOf_stays h.due e,?_,?_,?_,hl,?_⟩
  · rw [expired_concat,hr]
    simp [h.timely]
  · rw [sentBy_concat,h.sent]
  · rw [gotBy_concat,h.got]
  · exact tidy_concat.mpr ⟨h.proper,fun hx => absurd hx h.timely,hs⟩

theorem Midstream.write (h : Midstream env timeout framed S sent late got past) (hs : sent ≤ framed.length)
    (sh : Handle) (rc : Int) : Midstream env timeout framed S (sent + rc.toNat) (late + 1) got
      (past ++ [⟨.sessionWrite sh (framed.drop sent),rc⟩]) := by
  refine h.transfer (e := ⟨.sessionWrite sh (framed.drop sent),rc⟩) rfl (h.late.write _) ?_
  intro len _
  change sentBy past ≤ framed.length ∧ framed.drop sent = framed.drop (sentBy past)
  rw [h.sent]
  exact ⟨hs,rfl⟩

theorem Midstream.read {sh : Handle} {n : ℕ} (h : Midstream env timeout framed S sent late got past)
    (hs : ∀ len ∈ S, Sliced framed len past (.sessionRead sh n)) (rc : Int) (data : List UInt8) :
    Midstream env timeout framed S sent late (got + rc.toNat) (past ++ [⟨.sessionRead sh n,(rc,data)⟩]) :=
  h.transfer (e := ⟨.sessionRead sh n,(rc,data)⟩) rfl (h.late.other rfl) hs

theorem Midstream.slack {late' : ℕ} (h : Midstream env timeout framed S sent late got past)
    (hl : late ≤ late') : Midstream env timeout framed S sent late' got past :=
  { h with late := h.late.mono hl }

theorem Midstream.narrow {S' : Set ℕ} (h : Midstream env timeout framed S sent late got past)
    (hS : S' ⊆ S) : Midstream env timeout framed S' sent late got past := by
  have hproper : Tidy timeout framed S' past := by
    intro x hx
    obtain ⟨hstop,hslice⟩ := h.proper x hx
    exact ⟨hstop,fun len hlen => hslice len (hS hlen)⟩
  exact { h with proper := hproper }

theorem Over.quiet (h : Over env timeout framed S past) (he : Quiet e.op) :
    Over env timeout framed S (past ++ [e]) :=
  ⟨h.late.other (quiet_writing he),
    tidy_concat.mpr ⟨h.proper,fun _ => he,fun _ _ => quiet_sliced he⟩⟩

theorem calm_concat (h : Calm past) (he : Idle e.op) : Calm (past ++ [e]) := by
  rw [Calm,List.forall_mem_append]
  exact ⟨h,by simpa using he⟩

theorem Calm.over (h : Calm past) : Over env timeout framed S past := by
  have hstart : Over env timeout framed S [] := by
    constructor
    · intro str _ hs
      rw [List.map_eq_nil_iff.mp hs]
      exact Nat.zero_le _
    · intro x hx
      cases hx
  induction past using List.reverseRecOn with
  | nil => exact hstart
  | append_singleton past e ih =>
    rw [Calm,List.forall_mem_append] at h
    exact (ih h.1).quiet (h.2 e (List.mem_singleton_self e)).1

theorem Calm.readings (h : Calm past) : VclRs.readings past = 0 := by
  rw [VclRs.readings,List.countP_eq_zero]
  intro e he
  simp [idle_reading (h e he)]

theorem Calm.start (h : Calm past) :
    Midstream env timeout framed S 0 0 0 (past ++ [⟨.instantNow,env.clock 0⟩]) := by
  have hnone : past.findSome? reading = none := by
    rw [List.findSome?_eq_none_iff]
    exact fun e he => idle_reading (h e he)
  have hsum (f : Ev → ℕ) (hf : ∀ e, Quiet e.op → f e = 0) : (past.map f).sum = 0 := by
    rw [List.sum_eq_zero_iff_forall_eq_nat]
    rintro n hn
    obtain ⟨e,he,rfl⟩ := List.mem_map.mp hn
    exact hf e (h e he).1
  have hfresh : ¬ Expired timeout (past ++ [⟨.instantNow,env.clock 0⟩]) := by
    have hpast : ¬ Expired timeout past := by
      rintro ⟨x,hx,due,now,-,hread,-⟩
      obtain ⟨post,hpost⟩ := mem_histories hx
      have hidle := idle_reading (h x.2 (by rw [hpost]; simp))
      cases hidle.symm.trans hread
    rw [expired_concat]
    rintro (hx | ⟨due,now,hdue,-,-⟩)
    · exact hpast hx
    · rw [deadlineOf,hnone] at hdue
      cases hdue
  have hlate : LateAtMost (env.due timeout) past 0 := by
    intro str _ hs
    rw [lateWrites,Nat.le_zero,List.countP_eq_zero]
    intro x hx
    have hidle := h x.2 (by rw [← hs]; exact List.mem_map_of_mem hx)
    simp [quiet_writing hidle.1]
  refine ⟨?_,hfresh,?_,?_,hlate.other rfl,?_⟩
  · rw [deadlineOf,List.findSome?_append,hnone]
    rfl
  · rw [sentBy_concat]
    exact hsum wrote (fun _ => quiet_wrote)
  · rw [gotBy_concat]
    exact hsum fetched (fun _ => quiet_fetched)
  · have hover : Over env timeout framed S past := h.over
    exact tidy_concat.mpr ⟨hover.proper,fun _ => trivial,fun _ _ => trivial⟩

end Stages

section Straight

variable {α : Type} {sh vep : Handle}

theorem straight_err (e : VclError) : (err e : Vcl α).Straight := straight_fail _

theorem straight_rejectIf {c : Prop} [Decidable c] (e : VclError) : (rejectIf c e).Straight :=
  straight_ite (straight_err e) (straight_pure ())

theorem straight_attempt {x : Vcl α} (h : x.Straight) : (attempt x).Straight := by
  apply straight_handle h
  intro r
  match r with
  | .ok a => exact straight_pure _
  | .error (.err e) => exact straight_pure _
  | .error .dropped => exact straight_fail _

theorem dropSession_straight (sh : Handle) : (dropSession sh).Straight :=
  straight_bind (straight_call _) (fun _ => straight_pure _)

theorem drainMq_straight (vep : Handle) (ms : ℕ) : (drainMq vep ms).Straight :=
  straight_bind (straight_call _) (fun _ => straight_pure _)

theorem registerWorkerThread_straight : registerWorkerThread.Straight := by
  apply straight_bind (straight_call _)
  intro registered
  apply straight_ite (straight_pure _)
  apply straight_bind (straight_call _)
  intro _
  apply straight_bind (straight_call _)
  intro _
  apply straight_bind (straight_call _)
  intro idx
  apply straight_bind
  · exact straight_ite (straight_call _) (straight_call _)
  · exact fun _ => straight_call _

theorem ofExcept_straight (x : Except VclError α) : (ofExcept x).Straight := by
  cases x with
  | ok a => exact straight_pure a
  | error e => exact straight_err e

theorem watchSession_straight (vep sh : Handle) (events : UInt32) :
    (watchSession vep sh events).Straight := by
  apply straight_bind (straight_call _)
  intro rv
  apply straight_ite
  · exact straight_bind (straight_call _) (fun _ => straight_err _)
  · exact straight_pure _

variable [Platform]

theorem call_checkRc_straight {c : Call} {code : Reply c → Int} {k : Reply c → Vcl α}
    (hk : ∀ r, (k r).Straight) :
    (do let r ← ffi c; checkRc (code r); k r : Vcl α).Straight := by
  apply straight_bind (straight_call _)
  intro r
  exact straight_bind (straight_rejectIf _) (fun _ => hk r)

theorem createTcp_straight (nonblocking : Bool) : (createTcp nonblocking).Straight :=
  call_checkRc_straight (fun _ => straight_pure _)

theorem sessionWrite_straight (buf : List UInt8) : (sessionWrite sh buf).Straight :=
  call_checkRc_straight (fun _ => straight_pure _)

theorem sessionRead_straight (buf : List UInt8) : (sessionRead sh buf).Straight :=
  call_checkRc_straight (fun _ => straight_pure _)

theorem startConnect_straight (addr : SocketAddr) : (startConnect sh addr).Straight := by
  apply straight_bind (straight_attempt (straight_bind (straight_call _) (fun _ => straight_rejectIf _)))
  intro r
  cases r with
  | ok _ => exact straight_pure _
  | error e => exact straight_ite (straight_pure _) (straight_err _)

theorem bindEphemeral_straight (ip : IpAddr) (n : ℕ) : (bindEphemeral sh ip n).Straight := by
  induction n with
  | zero => exact straight_pure _
  | succ n ih =>
    apply straight_bind (straight_call _)
    intro port
    apply straight_bind (straight_attempt
      (straight_bind (straight_call _) (fun _ => straight_rejectIf _)))
    intro r
    cases r with
    | ok _ => exact straight_pure _
    | error _ => exact ih

theorem bindSourceIp_straight (peer : SocketAddr) (source : Option IpAddr) :
    (bindSourceIp sh peer source).Straight := by
  cases source with
  | none => exact straight_pure _
  | some ip =>
    apply straight_ite (straight_err _)
    exact straight_bind (bindEphemeral_straight ip 8) (fun _ => straight_rejectIf _)

end Straight

section Loops

variable {env : Surroundings} {timeout : Duration} {framed : List UInt8} {S : Set ℕ}
variable {sent late got N : ℕ} {past : List Ev} {sh vep : Handle}

theorem check_facing {α : Type} {rest : Vcl α} {Q : α → List Ev → Prop}
    (hN : env.due timeout ≤ env.clock N) (h : Midstream env timeout framed S sent late got past)
    (hl : late ≤ framed.length)
    (hrest : ∀ past', Midstream env timeout framed S sent 0 got past' → readings past < N →
      readings past' = readings past + 1 →
      (Contract.facing env.answer).wpe rest Q (fun _ => Over env timeout framed S) past') :
    (Contract.facing env.answer).wpe (do
      let now ← instantNow
      rejectIf (env.due timeout ≤ now) .timeout
      rest) Q (fun _ => Over env timeout framed S) past := by
  simp only [Contract.wpe_bind,Contract.wpe_call,wpe_rejectIf]
  intro (now : ℕ) hnow
  refine ⟨trivial,?_⟩
  split_ifs with hdue
  · exact (h.over hl).quiet (e := ⟨.instantNow,now⟩) trivial
  · have hclock : now = env.clock (readings past) := hnow.2.trans (env.ticks past)
    have hbefore : readings past < N := by
      by_contra hge
      apply hdue
      rw [hclock]
      exact hN.trans (env.steady (not_lt.mp hge))
    apply hrest _ (h.check (not_le.mp hdue)) hbefore
    rw [readings_concat]
    rfl

theorem drainMq_facing {α : Type} {a : α} {ms : ℕ} {Q : α → List Ev → Prop}
    {E : Stop → List Ev → Prop}
    (h : ∀ r, Q a (past ++ [⟨.epollWait vep 4 ms,r⟩])) :
    (Contract.facing env.answer).wpe (do drainMq vep ms; pure a) Q E past := by
  intro r _
  exact ⟨trivial,h r⟩

theorem idle_epollWait {ms : ℕ} : Idle (.epollWait vep 4 ms) := ⟨trivial,by rintro ⟨⟩⟩

variable [Platform]

omit [Platform] in
theorem readings_still {e : Ev} (h : reading e = none) : readings (past ++ [e]) = readings past := by
  rw [readings_concat,h]
  rfl

theorem sessionWrite_facing {buf : List UInt8} {Q : Except VclError ℕ → List Ev → Prop}
    {E : Stop → List Ev → Prop} (hbuf : buf ≠ [])
    (hok : ∀ rc : Int, 1 ≤ rc → rc ≤ buf.length →
      Q (.ok rc.toNat) (past ++ [⟨.sessionWrite sh buf,rc⟩]))
    (herr : ∀ (rc : Int) e, rc < 0 → Q (.error e) (past ++ [⟨.sessionWrite sh buf,rc⟩])) :
    (Contract.facing env.answer).wpe (attempt (sessionWrite sh buf)) Q E past := by
  simp only [sessionWrite,checkRc,wpe_attempt,Contract.wpe_bind,Contract.wpe_call,wpe_rejectIf,
    Contract.wpe_pure]
  intro (rc : Int) hrc
  refine ⟨trivial,?_⟩
  split_ifs with hneg
  · exact herr rc _ hneg
  · obtain ⟨hpos,hle⟩ := env.writes past sh buf rc hrc.2.symm hbuf (not_lt.mp hneg)
    exact hok rc hpos hle

theorem sessionRead_facing {buf : List UInt8} {Q : Except VclError (ℕ × List UInt8) → List Ev → Prop}
    {E : Stop → List Ev → Prop}
    (hok : ∀ (rc : Int) data, rc ≤ buf.length →
      Q (.ok (rc.toNat,patch buf data)) (past ++ [⟨.sessionRead sh buf.length,(rc,data)⟩]))
    (herr : ∀ (rc : Int) data e, rc < 0 →
      Q (.error e) (past ++ [⟨.sessionRead sh buf.length,(rc,data)⟩])) :
    (Contract.facing env.answer).wpe (attempt (sessionRead sh buf)) Q E past := by
  simp only [sessionRead,checkRc,wpe_attempt,Contract.wpe_bind,Contract.wpe_call,wpe_rejectIf,
    Contract.wpe_pure]
  rintro ⟨rc,data⟩ hrc
  refine ⟨trivial,?_⟩
  split_ifs with hneg
  · exact herr rc data _ hneg
  · exact hok rc data (env.reads past sh buf.length rc data hrc.2.symm)

theorem writeLoop_paced (hN : env.due timeout ≤ env.clock N)
    (h : Midstream env timeout framed S 0 0 0 past) :
    (Contract.facing env.answer).sure (writeLoop sh vep (env.due timeout) framed)
      (fun _ => Midstream env timeout framed S framed.length framed.length 0)
      (fun _ => Over env timeout framed S) past := by
  refine (Contract.facing env.answer).sure_loop
    (fun sent past => Midstream env timeout framed S sent sent 0 past ∧ sent ≤ framed.length)
    (fun sent past => (framed.length - sent) + (N - readings past)) ?_ ⟨h,Nat.zero_le _⟩
  rintro sent past ⟨hstage,hsent⟩
  apply (Contract.facing env.answer).sure_straight
  · apply straight_ite _ (straight_pure _)
    apply straight_bind (straight_attempt (sessionWrite_straight _))
    intro x
    cases x with
    | ok n => exact straight_pure _
    | error e =>
      apply straight_ite _ (straight_err _)
      apply straight_bind (straight_call _)
      intro now
      apply straight_bind (straight_rejectIf _)
      exact fun _ => straight_bind (drainMq_straight vep 5) (fun _ => straight_pure _)
  · rw [Contract.wpe_ite]
    split_ifs with hmore
    · have hbuf : framed.drop sent ≠ [] := by
        rw [Ne,List.drop_eq_nil_iff]
        omega
      rw [Contract.wpe_bind]
      apply sessionWrite_facing hbuf
      · intro rc hpos hle
        rw [List.length_drop] at hle
        have hnext := hstage.write hsent sh rc
        refine ⟨⟨hnext.slack (by omega),by omega⟩,?_⟩
        rw [readings_still rfl]
        omega
      · intro rc e hneg
        have hnext := hstage.write hsent sh rc
        rw [Int.toNat_of_nonpos hneg.le] at hnext
        rw [Contract.wpe_ite]
        split_ifs with he
        · apply check_facing hN hnext hmore
          intro past' hstage' hbefore hread
          apply drainMq_facing
          intro r
          refine ⟨⟨(hstage'.idle idle_epollWait).slack (Nat.zero_le _),hsent⟩,?_⟩
          rw [readings_still rfl] at hbefore hread
          rw [readings_still rfl,hread]
          omega
        · exact hnext.over hmore
    · have hall : sent = framed.length := by omega
      subst hall
      exact hstage

theorem readLoop_paced {base : ℕ} {buf : List UInt8} (hN : env.due timeout ≤ env.clock N)
    (hslice : ∀ past pos, gotBy past = base + pos → pos < buf.length → ∀ len ∈ S,
      Sliced framed len past (.sessionRead sh (buf.length - pos)))
    (h : Midstream env timeout framed S sent framed.length base past) :
    (Contract.facing env.answer).sure (readLoop sh vep (env.due timeout) buf)
      (fun out past => out.length = buf.length ∧
        Midstream env timeout framed S sent framed.length (base + buf.length) past)
      (fun _ => Over env timeout framed S) past := by
  refine (Contract.facing env.answer).sure_loop
    (fun st past => Midstream env timeout framed S sent framed.length (base + st.1) past ∧
      st.1 ≤ buf.length ∧ st.2.length = buf.length)
    (fun _ past => N - readings past) ?_ ⟨by simpa using h,Nat.zero_le _,rfl⟩
  rintro ⟨pos,acc⟩ past ⟨hstage,hpos,hlen⟩
  apply (Contract.facing env.answer).sure_straight
  · apply straight_ite _ (straight_pure _)
    apply straight_bind (straight_call _)
    intro now
    apply straight_bind (straight_rejectIf _)
    intro _
    apply straight_bind (straight_attempt (sessionRead_straight _))
    intro x
    cases x with
    | ok x => exact straight_ite (straight_err _) (straight_pure _)
    | error e =>
      apply straight_ite _ (straight_err _)
      exact straight_bind (drainMq_straight vep 5) (fun _ => straight_pure _)
  · rw [Contract.wpe_ite]
    split_ifs with hmore
    · dsimp only at hmore hpos hlen hstage ⊢
      apply check_facing hN hstage le_rfl
      intro past' hstage' hbefore hread
      have hdrop : (acc.drop pos).length = buf.length - pos := by
        rw [List.length_drop,hlen]
      have hsliced : ∀ len ∈ S, Sliced framed len past' (.sessionRead sh (acc.drop pos).length) := by
        rw [hdrop]
        exact hslice past' pos hstage'.got (by omega)
      rw [Contract.wpe_bind]
      apply sessionRead_facing
      · intro rc data hle
        have hnext := hstage'.read hsliced rc data
        rw [Contract.wpe_ite]
        split_ifs with hzero
        · exact hnext.over (Nat.zero_le _)
        · have hacc : (acc.take pos ++ patch (acc.drop pos) data).length = buf.length := by
            rw [List.length_append,List.length_take,patch_length,hdrop]
            omega
          rw [add_assoc] at hnext
          refine ⟨⟨hnext.slack (Nat.zero_le _),by dsimp only; omega,hacc⟩,?_⟩
          rw [readings_still rfl,hread]
          omega
      · intro rc data e hneg
        have hnext := hstage'.read hsliced rc data
        rw [Int.toNat_of_nonpos hneg.le] at hnext
        rw [Contract.wpe_ite]
        split_ifs with he
        · apply drainMq_facing
          intro r
          refine ⟨⟨(hnext.idle idle_epollWait).slack (Nat.zero_le _),hpos,hlen⟩,?_⟩
          rw [readings_still rfl,readings_still rfl,hread]
          omega
        · exact hnext.over (Nat.zero_le _)
    · have hall : pos = buf.length := by
        dsimp only at hmore hpos hlen
        omega
      subst hall
      exact ⟨hlen,hstage⟩

end Loops

section Query

variable {env : Surroundings} {timeout : Duration} {framed : List UInt8} {past : List Ev} {N : ℕ}

def Ended (env : Surroundings) (timeout : Duration) (framed : List UInt8) (past : List Ev) : Prop :=
  ∃ len, Over env timeout framed {len} past

theorem Over.ended {S : Set ℕ} {len : ℕ} (h : Over env timeout framed S past) (hlen : len ∈ S) :
    Ended env timeout framed past := by
  refine ⟨len,h.late,?_⟩
  intro x hx
  obtain ⟨hstop,hslice⟩ := h.proper x hx
  refine ⟨hstop,?_⟩
  rintro len' rfl
  exact hslice _ hlen

theorem Calm.ended (h : Calm past) : Ended env timeout framed past := by
  have hover : Over env timeout framed Set.univ past := h.over
  exact hover.ended (Set.mem_univ 0)

theorem calm_sure {α : Type} {x : Vcl α} (hx : x.Straight) (hc : x.Calls Idle) (h : Calm past) :
    (Contract.facing env.answer).sure x (fun _ => Calm) (fun _ => Ended env timeout framed) past := by
  apply (Contract.facing env.answer).sure_straight hx
  have hkeep : (Contract.facing env.answer).wpe x (fun _ => Calm) (fun _ => Calm) past := by
    refine (Contract.facing env.answer).wpe_of_calls ?_ hc h
    intro past e hpast he _
    exact ⟨trivial,calm_concat hpast he⟩
  exact (Contract.facing env.answer).wpe_mono hkeep (fun _ _ h => h) (fun _ _ h => h.ended)

theorem dropSession_paced (sh : Handle) (h : Ended env timeout framed past) :
    (Contract.facing env.answer).sure (dropSession sh) (fun _ => Ended env timeout framed)
      (fun _ => Ended env timeout framed) past := by
  apply (Contract.facing env.answer).sure_straight (dropSession_straight sh)
  obtain ⟨len,hover⟩ := h
  intro rc _
  exact ⟨trivial,len,hover.quiet (e := ⟨.sessionClose sh,rc⟩) trivial⟩

theorem holding_paced {α : Type} {body : Vcl α} (sh : Handle)
    (h : (Contract.facing env.answer).sure body (fun _ => Ended env timeout framed)
      (fun _ => Ended env timeout framed) past) :
    (Contract.facing env.answer).sure (holding sh body) (fun _ => Ended env timeout framed)
      (fun _ => Ended env timeout framed) past := by
  apply (Contract.facing env.answer).sure_ensuring
  exact (Contract.facing env.answer).sure_mono h (fun _ _ h => dropSession_paced sh h)
    (fun _ _ h => dropSession_paced sh h)

theorem configures_idle {sh : Handle} {c : Call} (h : Configures sh c) : Idle c := by
  cases h <;> exact ⟨trivial,nofun⟩

theorem registers_idle {c : Call} (h : Registers c) : Idle c := by
  cases h <;> exact ⟨trivial,nofun⟩

theorem draws_idle {c : Call} (h : Draws c) : Idle c := by
  cases h
  exact ⟨trivial,nofun⟩

variable [Platform] {sh vep : Handle}

omit [Platform] in
theorem prefix_sliced {framed : List UInt8} (past : List Ev) (pos : ℕ) (hgot : gotBy past = 0 + pos)
    (hpos : pos < 2) : ∀ len ∈ Set.univ, Sliced framed len past (.sessionRead sh (2 - pos)) := by
  intro len _
  left
  omega

omit [Platform] in
theorem body_sliced {framed : List UInt8} {len : ℕ} (past : List Ev) (pos : ℕ)
    (hgot : gotBy past = 2 + pos) (hpos : pos < (List.replicate len (0 : UInt8)).length) :
    ∀ len' ∈ ({len} : Set ℕ), Sliced framed len' past
      (.sessionRead sh ((List.replicate len (0 : UInt8)).length - pos)) := by
  rintro len' rfl
  rw [List.length_replicate] at hpos ⊢
  right
  omega

theorem dialogue_paced {query : List UInt8} (hN : env.due timeout ≤ env.clock N)
    (h : Midstream env timeout (toBeBytes query.length ++ query) Set.univ 0 0 0 past) :
    (Contract.facing env.answer).sure (do
      let framed ← ofExcept (frameTcpDnsQuery query)
      writeLoop sh vep (env.due timeout) framed
      let lenbuf ← readLoop sh vep (env.due timeout) [0,0]
      let len ← ofExcept (decodeTcpDnsLen (lenbuf.getD 0 0) (lenbuf.getD 1 0))
      readLoop sh vep (env.due timeout) (List.replicate len 0))
      (fun _ => Ended env timeout (toBeBytes query.length ++ query))
      (fun _ => Ended env timeout (toBeBytes query.length ++ query)) past := by
  apply (Contract.facing env.answer).sure_bind
  rw [frameTcpDnsQuery]
  split_ifs with hq
  · apply (Contract.facing env.answer).sure_straight (straight_pure _)
    rw [Contract.wpe_pure]
    apply (Contract.facing env.answer).sure_bind
    apply (Contract.facing env.answer).sure_mono (writeLoop_paced hN h) _
      (fun _ _ h => h.ended (Set.mem_univ 0))
    intro _ past hwritten
    apply (Contract.facing env.answer).sure_bind
    apply (Contract.facing env.answer).sure_mono (readLoop_paced hN prefix_sliced hwritten) _
      (fun _ _ h => h.ended (Set.mem_univ 0))
    rintro lenbuf past ⟨-,hheader⟩
    apply (Contract.facing env.answer).sure_bind
    apply (Contract.facing env.answer).sure_straight (ofExcept_straight _)
    cases decodeTcpDnsLen (lenbuf.getD 0 0) (lenbuf.getD 1 0) with
    | error e => exact (hheader.over le_rfl).ended (Set.mem_univ 0)
    | ok len =>
      rw [ofExcept,Contract.wpe_pure]
      have hbody := hheader.narrow (Set.subset_univ {len})
      apply (Contract.facing env.answer).sure_mono (readLoop_paced hN body_sliced hbody) _
        (fun _ _ h => h.ended (Set.mem_singleton len))
      rintro resp past ⟨-,hdone⟩
      exact (hdone.over le_rfl).ended (Set.mem_singleton len)
  · apply (Contract.facing env.answer).sure_straight (straight_err _)
    exact (h.over (Nat.zero_le _)).ended (Set.mem_univ 0)

theorem exchangeSync_paced {peer : SocketAddr} {query : List UInt8}
    (hN : env.due timeout ≤ env.clock N) (h : Calm past) :
    (Contract.facing env.answer).sure (exchangeSync sh vep peer query timeout)
      (fun _ => Ended env timeout (toBeBytes query.length ++ query))
      (fun _ => Ended env timeout (toBeBytes query.length ++ query)) past := by
  apply (Contract.facing env.answer).sure_bind
  apply (Contract.facing env.answer).sure_mono (calm_sure (startConnect_straight peer)
    (Prog.calls_mono (fun _ => configures_idle) (startConnect_calls peer)) h) _ (fun _ _ h => h)
  intro _ past hcalm
  apply (Contract.facing env.answer).sure_bind
  apply (Contract.facing env.answer).sure_straight (straight_call _)
  intro (start : ℕ) hstart
  have hclock : start = env.clock 0 := by
    rw [← hcalm.readings]
    exact hstart.2.trans (env.ticks past)
  subst hclock
  exact ⟨trivial,dialogue_paced hN hcalm.start⟩

theorem queryTcpDnsSync_sure {peer : SocketAddr} {source : Option IpAddr} {query : List UInt8}
    (hN : env.due timeout ≤ env.clock N) :
    (Contract.facing env.answer).sure (queryTcpDnsSync peer source query timeout)
      (fun _ => Ended env timeout (toBeBytes query.length ++ query))
      (fun _ => Ended env timeout (toBeBytes query.length ++ query)) [] := by
  have hnil : Calm [] := by
    intro e he
    cases he
  apply (Contract.facing env.answer).sure_bind
  apply (Contract.facing env.answer).sure_mono (calm_sure registerWorkerThread_straight
    (Prog.calls_mono (fun _ => registers_idle) registerWorkerThread_calls) hnil) _ (fun _ _ h => h)
  intro _ past hcalm
  apply (Contract.facing env.answer).sure_bind
  apply (Contract.facing env.answer).sure_mono (calm_sure (createTcp_straight true)
    (createTcp_calls ⟨trivial,nofun⟩) hcalm) _ (fun _ _ h => h)
  intro sh past hcalm
  apply holding_paced
  apply (Contract.facing env.answer).sure_bind
  have hbind : (bindSourceIp sh peer source).Calls Idle := by
    apply Prog.calls_mono _ (bindSourceIp_calls peer source)
    rintro c (hc | hc)
    · exact draws_idle hc
    · exact configures_idle hc
  apply (Contract.facing env.answer).sure_mono (calm_sure (bindSourceIp_straight peer source)
    hbind hcalm) _ (fun _ _ h => h)
  intro _ past hcalm
  apply (Contract.facing env.answer).sure_bind
  have hcreate : vppcomEpollCreate.Calls Idle := calls_call ⟨trivial,nofun⟩
  apply (Contract.facing env.answer).sure_mono (calm_sure (straight_call .epollCreate) hcreate hcalm)
    _ (fun _ _ h => h)
  intro (vep : Int) past hcalm
  apply (Contract.facing env.answer).sure_bind
  apply (Contract.facing env.answer).sure_mono (calm_sure (straight_rejectIf _)
    (calls_rejectIf _) hcalm) _ (fun _ _ h => h)
  intro _ past hcalm
  apply (Contract.facing env.answer).sure_bind
  have hwatch : (watchSession (handleOf vep) sh (epollin ||| epollout ||| epollet)).Calls Idle :=
    calls_bind (calls_call ⟨trivial,nofun⟩) (fun _ => calls_ite
      (calls_bind (calls_call ⟨trivial,nofun⟩) (fun _ => calls_err _)) (calls_pure _))
  apply (Contract.facing env.answer).sure_mono (calm_sure (watchSession_straight _ _ _)
    hwatch hcalm) _ (fun _ _ h => h)
  intro _ past hcalm
  exact holding_paced _ (exchangeSync_paced hN hcalm)

omit [Platform] in
theorem deadline_faced {tr : List Ev} {due : Instant} (h : Consistent env.answer tr)
    (hdue : deadlineOf timeout tr = some due) : due = env.due timeout := by
  induction tr using List.reverseRecOn with
  | nil => cases hdue
  | append_singleton tr e ih =>
    obtain ⟨hpast,hreply⟩ := Contract.consistent_concat.mp h
    cases hold : deadlineOf timeout tr with
    | some due' =>
      rw [deadlineOf_stays hold] at hdue
      cases hdue
      exact ih hpast hold
    | none =>
      have hnone : tr.findSome? reading = none := Option.map_eq_none_iff.mp hold
      have hfirst : readings tr = 0 := by
        rw [readings,List.countP_eq_zero]
        intro x hx
        simp [List.findSome?_eq_none_iff.mp hnone x hx]
      rw [deadlineOf,List.findSome?_append,hnone,Option.none_or] at hdue
      obtain ⟨op,reply⟩ := e
      cases op <;> cases hdue
      rw [Surroundings.due,← hfirst,← env.ticks tr,← hreply]

end Query

def trickling : Surroundings where
  answer past c :=
    match c with
    | .instantNow => readings past
    | .sessionWrite _ _ => (1 : Int)
    | .sessionRead _ _ => ((-11 : Int),[])
    | c => obliging c
  clock := id
  steady := monotone_id
  ticks _ := rfl
  writes _ _ _ rc h hb _ := by
    obtain rfl : (1 : Int) = rc := h
    have hpos := List.length_pos_of_ne_nil hb
    omega
  reads _ _ _ rc _ h := by
    obtain rfl : (-11 : Int) = rc := congrArg Prod.fst h
    omega

end VclRs
