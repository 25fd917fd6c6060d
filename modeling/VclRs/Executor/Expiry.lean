import VclRs.Executor.Attention
import VclRs.Executor.Play
import VclRs.Schedule

namespace VclRs

open Interaction Fallible

structure Shelved (n : NotifyId) (p : Code) : Prop where
  prompt : Escapes (fun e => timerWon e = true) (.err .timeout) ⟨p⟩
  attends : ∃ past, (attending (fun _ m => m = n)).wpe ⟨p⟩ (fun _ _ => True) ByTimer past

section Shelf

variable {n : NotifyId} {p : Code}

theorem waitLoop_shelved (r : VclReactor) (n : NotifyId) (d : Instant) :
    Shelved n (r.waitLoop n d).prog :=
  ⟨waitLoop_escapes r n d,[],waitLoop_attends (fun _ _ h => h) rfl⟩

theorem shelved_step {e : Ev} {q : Code} (h : Shelved n p) (hs : Prog.Step p e q) : Shelved n q := by
  obtain ⟨past,ha⟩ := h.attends
  exact ⟨(Prog.upholds_step h.prompt hs).2,past ++ [e],(Contract.wp_step _ ha hs trivial).2⟩

theorem shelved_awaits {e : Ev} {q : Code} {m : NotifyId} (h : Shelved n p) (hs : Prog.Step p e q)
    (hm : awaited e.op = some m) : m = n := by
  obtain ⟨past,ha⟩ := h.attends
  exact (Contract.wp_step _ ha hs trivial).1 m hm

theorem shelved_returns {e : Ev} {q : Code} (h : Shelved n p) (hs : Prog.Step p e q)
    (hq : q.Returns (.error (.err .timeout))) : timerWon e = true := by
  obtain ⟨past,ha⟩ := h.attends
  obtain ⟨e',hlast,hw⟩ := Contract.wp_returns _ (Contract.wp_step _ ha hs trivial).2 hq rfl
  change (past ++ [e]).getLast? = some e' at hlast
  rw [List.getLast?_concat] at hlast
  cases hlast
  exact hw

end Shelf

theorem timerWon_elapsed {e : Ev} (h : timerWon e = true) :
    ∃ v n d now, e = ⟨.select v n d,(now,.elapsed)⟩ := by
  obtain ⟨op,x⟩ := e
  cases op with
  | select v n d =>
    obtain ⟨now,x⟩ := x
    cases x with
    | elapsed => exact ⟨v,n,d,now,rfl⟩
    | _ => cases h
  | _ => cases h

theorem slot_session {c : Chore} {s : Berth} (h : c.slot = some s) :
    c.session = some (s.2.reactor.vep,s.2.handle) := by
  cases c <;> cases h <;> rfl

namespace Bench

def Joined (R : Bench) (key : Handle × Handle) (n : NotifyId) : Prop :=
  ∃ w, (w,(⟨.waitersEntry key.1 key.2,n⟩ : Ev)) ∈ R.log

def Pending (R : Bench) (key : Handle × Handle) (n : NotifyId) : Prop :=
  ∃ m, (m = n ∨ R.waiters.lookup key = some m) ∧ (R.notifies m).holdings ≠ 0

inductive Faces (R : Bench) (l : Lane) (n : NotifyId) (d : Instant) : Prop
  | own {v : Handle} {k : Reply (.select v n d) → Routine} (hs : l.chore.slot = none)
      (hk : l.code.Head (.select v n d) k) : Faces R l n d
  | stored {s : Berth} {sh v : Handle} {cx : ℕ} {k : Reply (.waitPoll sh cx) → Routine} {p : Code}
      {k' : Reply (.select v n d) → Code} (hs : l.chore.slot = some s)
      (hk : l.code.Head (.waitPoll sh cx) k) (hp : R.slots s = some p)
      (hp' : p.Head (.select v n d) k') : Faces R l n d

def TimesOut (R R' : Bench) (i : ℕ) (l : Lane) : Prop :=
  R.lanes[i]? = some l ∧ ∃ (e : Ev) (q : Routine) (a : Ending),
    R'.lanes[i]? = some (l.advance e q) ∧ q.Returns a ∧ a.TimedOut

def Vindicated [Platform] (R : Bench) : Prop :=
  ∀ R' i l key, Step R R' → R.TimesOut R' i l → l.chore.session = some key →
    ∃ w v n d now, R'.log = R.log ++ [(w,⟨.select v n d,(now,.elapsed)⟩)] ∧ R.Joined key n ∧
      ¬ R.Pending key n

def Unmasked (R : Bench) : Prop :=
  ∀ (i : ℕ) (l : Lane) (key : Handle × Handle) (n : NotifyId) (d : Instant), R.lanes[i]? = some l →
    l.chore.session = some key → R.Faces l n d → d ≤ R.clock → ¬ R.Pending key n

section Expiring

variable [Platform] {R R' : Bench} {i : ℕ} {l : Lane} {key : Handle × Handle}

theorem lane_attentive (h : Later idle R) (hl : R.lanes[i]? = some l)
    (hc : l.chore.session = some key) : Attentive l.chore key l.past l.code := by
  refine lanes_invariant (I := fun l => l.chore.session = some key →
    Attentive l.chore key l.past l.code) ?_ ?_ h hl hc
  · intro d b hd
    exact chore_attentive hd b
  · intro l e q ih hs hd
    exact attentive_step (ih hd) hs

theorem joined_later {n : NotifyId} (h : Step R R') (hj : R.Joined key n) : R'.Joined key n := by
  obtain ⟨w,hw⟩ := hj
  exact ⟨w,(step_log h).subset hw⟩

theorem armed_joined {e : Ev} {s : Berth} {p : Code} (h : Later idle R) (hl : R.lanes[i]? = some l)
    (ha : l.arms e = some (s,p)) :
    ∃ n, R.Joined (s.2.reactor.vep,s.2.handle) n ∧ Shelved n p := by
  obtain ⟨hs,n,d,hn,rfl⟩ := arms_wait ha
  obtain ⟨e',hlast,hgranted⟩ := Option.bind_eq_some_iff.mp hn
  have hmem := List.mem_of_getLast? hlast
  have hserves := (lane_attentive h hl (slot_session hs)).served e' hmem
  refine ⟨n,⟨.lane i,?_⟩,waitLoop_shelved _ n d⟩
  obtain ⟨op,x⟩ := e'
  cases op with
  | waitersEntry vep sh =>
    cases hgranted
    have hlogged := past_logged h hl hmem (unpolled rfl)
    cases hserves with
    | waits hw =>
      cases hw
      exact hlogged
    | configures hw => cases hw
    | transfers hw => cases hw
    | queries hw => cases hw
  | _ => cases hgranted

theorem slot_shelved {s : Berth} {p : Code} (h : Later idle R) (hp : R.slots s = some p) :
    ∃ n, R.Joined (s.2.reactor.vep,s.2.handle) n ∧ Shelved n p := by
  induction h generalizing s p with
  | refl => cases hp
  | tail hlater hs ih =>
    rcases step_slot hs hp with ⟨p₀,hp₀,hmove⟩ | ⟨i,l,e,hl,ha⟩
    · obtain ⟨n,hn,hshelved⟩ := ih hp₀
      rcases hmove with rfl | ⟨e,he⟩
      · exact ⟨n,joined_later hs hn,hshelved⟩
      · exact ⟨n,joined_later hs hn,shelved_step hshelved he⟩
    · obtain ⟨n,hn,hshelved⟩ := armed_joined hlater hl ha
      exact ⟨n,joined_later hs hn,hshelved⟩

omit [Platform] in
theorem times_out {e : Ev} {q : Routine} {a : Ending} (hl : R.lanes[i]? = some l)
    (hset : R'.lanes = R.lanes.set i (l.advance e q)) (hq : q = .ret a) (ha : a.TimedOut) :
    R.TimesOut R' i l := by
  refine ⟨hl,e,q,a,?_,by rw [hq]; exact .ret a,ha⟩
  rw [hset]
  exact List.getElem?_set_self (List.getElem?_eq_some_iff.mp hl).1

theorem own_expires {v : Handle} {n : NotifyId} {d : Instant} {k : Reply (.select v n d) → Routine}
    (h : Later idle R) (hl : R.lanes[i]? = some l) (hc : l.chore.session = some key)
    (hs : l.chore.slot = none) (hk : l.code.Head (.select v n d) k) (hd : d ≤ R.clock) :
    ∃ R', Step R R' ∧ R.TimesOut R' i l ∧
      R'.log = R.log ++ [(.lane i,⟨.select v n d,(R.clock,.elapsed)⟩)] := by
  have hstep := Prog.head_step hk (R.clock,.elapsed)
  have hret := (Prog.upholds_step (lane_attentive h hl hc).prompt hstep).1 (.failed .timeout)
    (by rw [Chore.answer,hs]; rfl)
  exact ⟨_,.act hl hstep (unpolled rfl) (touch_elapsed.mpr ⟨rfl,hd,rfl⟩),times_out hl rfl hret rfl,rfl⟩

theorem stored_expires {s : Berth} {sh v : Handle} {cx : ℕ} {n : NotifyId} {d : Instant}
    {k : Reply (.waitPoll sh cx) → Routine} {p : Code} {k' : Reply (.select v n d) → Code}
    (h : Later idle R) (hl : R.lanes[i]? = some l) (hs : l.chore.slot = some s)
    (hk : l.code.Head (.waitPoll sh cx) k) (hp : R.slots s = some p)
    (hp' : p.Head (.select v n d) k') (hd : d ≤ R.clock) :
    ∃ R', Step R R' ∧ R.TimesOut R' i l ∧
      R'.log = R.log ++ [(.slot s,⟨.select v n d,(R.clock,.elapsed)⟩)] := by
  obtain ⟨m,-,hshelved⟩ := slot_shelved h hp
  have hinner := Prog.head_step hp' (R.clock,.elapsed)
  have hgone : k' (R.clock,.elapsed) = .ret (.error (.err .timeout)) :=
    (Prog.upholds_step hshelved.prompt hinner).1 rfl
  have houter := Prog.head_step hk (.ready (.error .timeout))
  have hret := (Prog.upholds_step (lane_attentive h hl (slot_session hs)).prompt houter).1
    (.ioFailed (vclToIo .timeout)) (by rw [Chore.answer,hs]; rfl)
  rw [hgone] at hinner
  exact ⟨_,.ready hl hs hk hp hinner (.ret _) rfl (touch_elapsed.mpr ⟨rfl,hd,rfl⟩),
    times_out hl rfl hret rfl,rfl⟩

theorem faces_expires {n : NotifyId} {d : Instant} (h : Later idle R) (hl : R.lanes[i]? = some l)
    (hc : l.chore.session = some key) (hf : R.Faces l n d) (hd : d ≤ R.clock) :
    ∃ R' w v, Step R R' ∧ R.TimesOut R' i l ∧
      R'.log = R.log ++ [(w,⟨.select v n d,(R.clock,.elapsed)⟩)] := by
  cases hf with
  | own hs hk =>
    obtain ⟨R',h'⟩ := own_expires h hl hc hs hk hd
    exact ⟨R',_,_,h'⟩
  | stored hs hk hp hp' =>
    obtain ⟨R',h'⟩ := stored_expires h hl hs hk hp hp' hd
    exact ⟨R',_,_,h'⟩

theorem vindicated_unmasked (h : Later idle R) (hv : R.Vindicated) : R.Unmasked := by
  intro i l key n d hl hc hf hd
  obtain ⟨R',w,v,hs,ht,hlog⟩ := faces_expires h hl hc hf hd
  obtain ⟨w',v',n',d',now',hlog',-,hquiet⟩ := hv R' i l key hs ht hc
  rw [hlog] at hlog'
  have hlast := List.append_cancel_left hlog'
  cases hlast
  exact hquiet

omit [Platform] in
theorem advance_ne {e : Ev} {q : Routine} : l.advance e q ≠ l := by
  intro h
  have hlen := congrArg (fun l => l.past.length) h
  simp [Lane.advance] at hlen

omit [Platform] in
theorem advance_inj {e e' : Ev} {q q' : Routine} (h : l.advance e q = l.advance e' q') :
    e = e' ∧ q = q' := by
  injection h with _ hpast hcode
  exact ⟨List.singleton_injective (List.append_cancel_left hpast),hcode⟩

omit [Platform] in
theorem resolved_timeout {r : Except Stop Unit} (h : resolved r = some (.error .timeout)) :
    r = .error (.err .timeout) := by
  cases r with
  | ok u => cases h
  | error e =>
    cases e with
    | err e =>
      cases h
      rfl
    | dropped => cases h

omit [Platform] in
theorem slot_answer {c : Chore} {s : Berth} {sh : Handle} {cx : ℕ} {p : Poll (Except VclError Unit)}
    {a : Ending} (hs : c.slot = some s) (h : c.answer ⟨.waitPoll sh cx,p⟩ = some a) :
    p = .ready (.error .timeout) := by
  rw [Chore.answer,hs] at h
  cases p with
  | pending => cases h
  | ready v =>
    cases v with
    | ok u => cases h
    | error e =>
      cases e with
      | timeout => rfl
      | _ => cases h

theorem unmasked_vindicated (h : Later idle R) (hu : R.Unmasked) : R.Vindicated := by
  rintro R' i l key hs ⟨hl,e,q,a,hl',hq,ha⟩ hc
  have hattentive := lane_attentive h hl hc
  rcases step_lane hs hl' with ⟨l₀,hl₀,hm⟩ | ⟨hnone,-⟩
  · obtain rfl : l₀ = l := Option.some.inj (hl₀.symm.trans hl)
    generalize hadv : l₀.advance e q = l' at hm
    cases hm with
    | still => exact absurd hadv advance_ne
    | act hstep he ht hlog =>
      obtain ⟨rfl,rfl⟩ := advance_inj hadv
      have hanswer := attentive_returns hattentive hstep hq ha
      cases hslot : l₀.chore.slot with
      | none =>
        rw [Chore.answer,hslot] at hanswer
        have hw : timerWon e = true := by
          by_contra hw
          rw [if_neg hw] at hanswer
          cases hanswer
        obtain ⟨v,n,d,now,rfl⟩ := timerWon_elapsed hw
        obtain ⟨k,hk,-⟩ := Prog.step_head hstep
        obtain ⟨-,hd,-⟩ := touch_elapsed.mp ht
        have hentered := (Contract.wp_step _ hattentive.attends hstep trivial).1 n rfl
        exact ⟨_,v,n,d,now,hlog,⟨_,past_logged h hl hentered (unpolled rfl)⟩,
          hu i l₀ key n d hl hc (.own hslot hk) hd⟩
      | some s =>
        obtain ⟨op,x⟩ := e
        cases op with
        | waitPoll sh cx => exact absurd rfl (he sh cx)
        | _ =>
          rw [Chore.answer,hslot] at hanswer
          cases hanswer
    | ready hslot hk hp hp' hr hv ht hlog =>
      obtain ⟨rfl,rfl⟩ := advance_inj hadv
      have hanswer := attentive_returns hattentive (Prog.head_step hk _) hq ha
      cases slot_answer hslot hanswer
      obtain rfl := resolved_timeout hv
      obtain ⟨m,hjoined,hshelved⟩ := slot_shelved h hp
      obtain ⟨v,n,d,now,rfl⟩ := timerWon_elapsed (shelved_returns hshelved hp' hr)
      obtain rfl := shelved_awaits hshelved hp' rfl
      obtain ⟨k',hk',-⟩ := Prog.step_head hp'
      obtain ⟨-,hd,-⟩ := touch_elapsed.mp ht
      obtain rfl := Option.some.inj (hc.symm.trans (slot_session hslot))
      exact ⟨_,v,n,d,now,hlog,hjoined,hu i l₀ _ n d hl hc (.stored hslot hk hp hk') hd⟩
    | pending hk hlog =>
      obtain ⟨rfl,rfl⟩ := advance_inj hadv
      have hanswer := attentive_returns hattentive (Prog.head_step hk _) hq ha
      rw [Chore.answer] at hanswer
      split at hanswer <;> cases hanswer
  · rw [hl] at hnone
    cases hnone

theorem timeouts_vindicated (run : List Bench) (h : Trail run) :
    (∀ R ∈ idle :: run, R.Vindicated) ↔ ∀ R ∈ idle :: run, R.Unmasked := by
  constructor
  · intro hv R hR
    exact vindicated_unmasked (trail_later h hR) (hv R hR)
  · intro hu R hR
    exact unmasked_vindicated (trail_later h hR) (hu R hR)

end Expiring

def faced (R : Bench) (l : Lane) : Option (NotifyId × Instant) :=
  match l.chore.slot, l.code.expose 20 with
  | none, some ⟨.select _ n d,_⟩ => some (n,d)
  | some s, some ⟨.waitPoll _ _,_⟩ =>
    match (R.slots s).bind (Prog.expose 20) with
    | some ⟨.select _ n d,_⟩ => some (n,d)
    | _ => none
  | _, _ => none

theorem faced_faces {R : Bench} {l : Lane} {n : NotifyId} {d : Instant}
    (h : R.faced l = some (n,d)) : R.Faces l n d := by
  rw [faced] at h
  split at h
  · next hs hk =>
    cases h
    exact .own hs (Prog.expose_head hk)
  · next s sh cx k hs hk =>
    split at h
    · next v m t k' hp =>
      cases h
      obtain ⟨p,hp,hx⟩ := Option.bind_eq_some_iff.mp hp
      exact .stored hs (Prog.expose_head hk) hp (Prog.expose_head hx)
    · cases h
  · cases h

def overdue (R : Bench) (i : ℕ) (key : Handle × Handle) (n : NotifyId) : Bool :=
  R.lanes[i]?.any (fun l => decide (l.chore.session = some key) &&
    (R.faced l).any (fun x => decide (x.1 = n ∧ x.2 ≤ R.clock)))

theorem overdue_expires [Platform] {R : Bench} {i : ℕ} {key : Handle × Handle} {n : NotifyId}
    (h : Later idle R) (ho : R.overdue i key n = true) :
    ∃ l R', R.lanes[i]? = some l ∧ l.chore.session = some key ∧ (∃ d, R.Faces l n d ∧ d ≤ R.clock) ∧
      Step R R' ∧ R.TimesOut R' i l := by
  obtain ⟨l,hl,hx⟩ := (Option.any_eq_true _ _).mp ho
  obtain ⟨hc,hf⟩ := (Bool.and_eq_true _ _).mp hx
  obtain ⟨⟨m,d⟩,hfaced,hd⟩ := (Option.any_eq_true _ _).mp hf
  obtain ⟨rfl,hle⟩ := of_decide_eq_true hd
  have hfaces := faced_faces hfaced
  obtain ⟨R',-,-,hs,ht,-⟩ := faces_expires h hl (of_decide_eq_true hc) hfaces hle
  exact ⟨l,R',hl,of_decide_eq_true hc,⟨d,hfaces,hle⟩,hs,ht⟩

def quietly (x : Party × Ev) : Bool :=
  match x.2.op with
  | .notifyOne _ _ => false
  | .notifyEvery _ => false
  | _ => true

theorem quietly_posts {R : Bench} {x : Party × Ev} (h : quietly x = true) : R.posts x.2.op = [] := by
  obtain ⟨w,op,r⟩ := x
  cases op <;> first
    | rfl
    | cases h

theorem hushed_empty [Platform] {R : Bench} (h : Later idle R) (hq : ∀ x ∈ R.log, quietly x = true)
    (n : NotifyId) : (R.notifies n).holdings = 0 := by
  induction h with
  | refl => rfl
  | tail _ hs ih =>
    have hbefore := ih (fun x hx => hq x ((step_log hs).subset hx))
    rcases step_empty hs hbefore with hz | ⟨w,e,hlog,hn⟩
    · exact hz
    · have hlast : quietly (w,e) = true := by
        apply hq
        rw [hlog]
        exact List.mem_append_right _ (List.mem_singleton_self _)
      rw [quietly_posts hlast] at hn
      cases hn

theorem hushed_unmasked [Platform] {R : Bench} (h : Later idle R)
    (hq : ∀ x ∈ R.log, quietly x = true) : R.Unmasked := by
  rintro i l key n d - - - - ⟨m,-,hm⟩
  exact hm (hushed_empty h hq m)

def dry : (c : Call) → Reply c
  | .sessionRead _ _ => ((-11 : Int),[])
  | c => obliging c

def arriving : (c : Call) → Reply c
  | .epollWait _ _ _ => ((1 : Int),[⟨epollin,1⟩])
  | c => obliging c

def lonely : List Cue :=
  [.spawn (.read ⟨1,⟨9⟩⟩ [0]),.act 0 dry,.act 0 dry,.act 0 dry,.pend 0,.elapse (secs 300)]

def postponed : List Cue :=
  [.spawn (.pollRead ⟨1,⟨9⟩⟩ 0 [0]),.act 0 dry,.act 0 dry,.act 0 dry,.suspend 0,
    .spawn (.other ((VclReactor.drainEvents ⟨9⟩).prog.bind (fun r => .ret (concluded r)))),
    .act 1 arriving,.act 1 arriving,.elapse (secs 300),.spawn (.pollRead ⟨1,⟨9⟩⟩ 1 [0])]

theorem timeouts_vindicated_lonely : ∃ run R R' l, @Trail host run ∧ R ∈ idle :: run ∧
    @Step host R R' ∧ R.TimesOut R' 0 l ∧ l.chore.session = some (9,1) ∧
      ∀ R ∈ idle :: run, @Vindicated host R := by
  have htrail : @Trail host (@tour host idle lonely) := @tour_chain host idle lonely
  have hquiet : ∀ R ∈ idle :: @tour host idle lonely, ∀ x ∈ R.log, quietly x = true := by
    decide +kernel
  obtain ⟨R,hR,ho⟩ := @tour_last idle host (fun R => R.overdue 0 (9,1) 0) lonely (by decide +kernel)
  obtain ⟨l,R',hl,hc,-,hs,ht⟩ := @overdue_expires host R 0 (9,1) 0 (@trail_later host R _ htrail hR) ho
  refine ⟨_,R,R',l,htrail,hR,hs,ht,hc,(@timeouts_vindicated host _ htrail).mpr ?_⟩
  intro R hR
  exact @hushed_unmasked host R (@trail_later host R _ htrail hR) (hquiet R hR)

theorem late_poll_masks_notification : ∃ run R R' l, @Trail host run ∧ R ∈ idle :: run ∧
    @Step host R R' ∧ R.TimesOut R' 2 l ∧ l.chore.session = some (9,1) ∧ R.Pending (9,1) 0 ∧
      ¬ @Vindicated host R := by
  have htrail : @Trail host (@tour host idle postponed) := @tour_chain host idle postponed
  obtain ⟨R,hR,hx⟩ := @tour_last idle host (fun R => R.overdue 2 (9,1) 0 &&
    decide ((R.notifies 0).holdings ≠ 0)) postponed (by decide +kernel)
  obtain ⟨ho,hn⟩ := (Bool.and_eq_true _ _).mp hx
  have hlater := @trail_later host R _ htrail hR
  have hpending : R.Pending (9,1) 0 := ⟨0,.inl rfl,of_decide_eq_true hn⟩
  obtain ⟨l,R',hl,hc,⟨d,hf,hd⟩,hs,ht⟩ := @overdue_expires host R 2 (9,1) 0 hlater ho
  refine ⟨_,R,R',l,htrail,hR,hs,ht,hc,hpending,?_⟩
  intro hv
  exact @vindicated_unmasked host R hlater hv 2 l (9,1) 0 d hl hc hf hd hpending

end Bench

end VclRs
