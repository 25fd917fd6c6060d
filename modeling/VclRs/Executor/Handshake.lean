import VclRs.Executor.Expiry
import VclRs.Strays

namespace VclRs

open Interaction Fallible

def waitOver : Ev → Bool
  | ⟨.select _ _ _,(_,.readable)⟩ => false
  | ⟨.select _ _ _,_⟩ => true
  | ⟨.recheck _,(_,.elapsed)⟩ => false
  | ⟨.recheck _,_⟩ => true
  | _ => false

def mqFailed : Ev → Bool
  | ⟨.select _ _ _,(_,.readFailed _)⟩ => true
  | _ => false

def Expects (past : List Ev) (n : NotifyId) : Prop :=
  n ∈ past.filterMap granted ∧ ∀ e ∈ past, waitOver e = false

instance instDecidableExpects (past : List Ev) (n : NotifyId) : Decidable (Expects past n) :=
  inferInstanceAs (Decidable (n ∈ past.filterMap granted ∧ ∀ e ∈ past, waitOver e = false))

def handshaking (timeout : Duration) : Contract Call Reply (List Ev) where
  rely _ _ := True
  guar past e := (∀ n, awaited e.op = some n → Expects past n) ∧
    ∀ v n d, e.op = .select v n d → deadlineOf timeout past = some d
  next past e := past ++ [e]

structure Unstarted (timeout : Duration) (past : List Ev) : Prop where
  waiting : ∀ e ∈ past, waitOver e = false
  undated : deadlineOf timeout past = none

structure Vigil (timeout : Duration) (n : NotifyId) (d : Instant) (past : List Ev) : Prop where
  expects : Expects past n
  dated : deadlineOf timeout past = some d

def plain : Call → Bool
  | .select _ _ _ => false
  | .recheck _ => false
  | .instantNow => false
  | _ => true

def Plain (c : Call) : Prop := plain c = true

def HeardLast (past : List Ev) : Prop := ∃ e, past.getLast? = some e ∧ heard e = true

def Fell (timeout : Duration) (e : Stop) (past : List Ev) : Prop :=
  deadlineOf timeout past ≠ none → e = .err .timeout ∨ e = .dropped ∨ ∃ ev ∈ past, mqFailed ev = true

section Dialling

variable {timeout : Duration} {past : List Ev} {e : Ev} {n : NotifyId} {d : Instant}

theorem plain_spec (h : Plain e.op) : awaited e.op = none ∧ waitOver e = false ∧ reading e = none := by
  obtain ⟨op,x⟩ := e
  cases op <;> first
    | exact ⟨rfl,rfl,rfl⟩
    | cases h

theorem unawaited_handshakes (h : awaited e.op = none) : (handshaking timeout).guar past e := by
  constructor
  · intro n hn
    rw [h] at hn
    cases hn
  · intro v n d hop
    rw [hop] at h
    cases h

theorem waiting_concat (h : ∀ e ∈ past, waitOver e = false) (he : waitOver e = false) :
    ∀ e' ∈ past ++ [e], waitOver e' = false := by
  intro e' he'
  rcases List.mem_append.mp he' with hpast | hlast
  · exact h e' hpast
  · rw [List.mem_singleton.mp hlast]
    exact he

theorem undated_concat (h : deadlineOf timeout past = none) (he : reading e = none) :
    deadlineOf timeout (past ++ [e]) = none := by
  rw [deadlineOf,Option.map_eq_none_iff] at h ⊢
  rw [List.findSome?_append,h]
  simp [he]

theorem vigil_concat (h : Vigil timeout n d past) (he : waitOver e = false) :
    Vigil timeout n d (past ++ [e]) := by
  refine ⟨⟨?_,waiting_concat h.expects.2 he⟩,deadlineOf_stays h.dated e⟩
  rw [List.filterMap_append]
  exact List.mem_append_left _ h.expects.1

theorem plain_wpe {α : Type} {x : Vcl α} {Q : α → List Ev → Prop} {E : Stop → List Ev → Prop}
    (hx : x.Calls Plain) (hQ : ∀ a past, Unstarted timeout past → Q a past)
    (hE : ∀ e past, Unstarted timeout past → E e past) (h : Unstarted timeout past) :
    (handshaking timeout).wpe x Q E past := by
  have hkeeps : (handshaking timeout).wpe x (fun _ => Unstarted timeout) (fun _ => Unstarted timeout)
      past := by
    refine Contract.wpe_of_calls _ ?_ hx h
    intro past e hp he _
    obtain ⟨hwait,hends,hnow⟩ := plain_spec he
    exact ⟨unawaited_handshakes hwait,waiting_concat hp.waiting hends,undated_concat hp.undated hnow⟩
  exact Contract.wpe_mono _ hkeeps hQ hE

theorem waitLoop_handshakes (r : VclReactor) (h : Vigil timeout n d past) :
    (handshaking timeout).wpe (r.waitLoop n d) (fun _ => HeardLast) (Fell timeout) past := by
  refine waitLoop_rule (I := Vigil timeout n d) ?_ ?_ ?_ ?_ h
  · rintro past ⟨now,sel⟩ hp _
    refine ⟨⟨?_,?_⟩,?_⟩
    · rintro m ⟨⟩
      exact hp.expects
    · rintro v m t ⟨⟩
      exact hp.dated
    · cases sel with
      | readFailed e =>
        intro _
        exact .inr (.inr ⟨_,List.mem_append_right _ (List.mem_singleton_self _),rfl⟩)
      | readable => exact vigil_concat hp rfl
      | notified => exact ⟨_,List.getLast?_concat,rfl⟩
      | elapsed => exact fun _ => .inl rfl
      | dropped => exact fun _ => .inr (.inl rfl)
  · rintro past ⟨op,x⟩ hp hop _
    cases hop with
    | drain => exact ⟨unawaited_handshakes rfl,vigil_concat hp rfl⟩
    | notify sh => exact ⟨unawaited_handshakes rfl,vigil_concat hp rfl⟩
  · intro past x hp _
    exact ⟨unawaited_handshakes rfl,vigil_concat hp rfl⟩
  · rintro past ⟨now,again⟩ hp _
    refine ⟨⟨?_,fun _ _ _ hop => Call.noConfusion hop⟩,?_⟩
    · rintro m ⟨⟩
      exact hp.expects
    · cases again with
      | notified => exact ⟨_,List.getLast?_concat,rfl⟩
      | elapsed => exact vigil_concat hp rfl
      | dropped => exact fun _ => .inr (.inl rfl)

theorem waitEvent_handshakes (r : VclReactor) (sh : Handle) (mask : UInt32)
    (h : Unstarted timeout past) :
    (handshaking timeout).wpe (r.waitEvent sh mask timeout) (fun _ => HeardLast) (Fell timeout) past := by
  rw [VclReactor.waitEvent,Contract.wpe_bind,Contract.wpe_call]
  intro n _
  refine ⟨unawaited_handshakes rfl,?_⟩
  rw [Contract.wpe_bind,Contract.wpe_call]
  intro now _
  refine ⟨unawaited_handshakes rfl,waitLoop_handshakes r ⟨⟨?_,?_⟩,?_⟩⟩
  · change n ∈ List.filterMap granted ((past ++ [_]) ++ [_])
    rw [List.filterMap_append,List.filterMap_append]
    exact List.mem_append_left _ (List.mem_append_right _ (List.mem_singleton_self n))
  · exact waiting_concat (waiting_concat h.waiting rfl) rfl
  · have hundated := h.undated
    rw [deadlineOf,Option.map_eq_none_iff] at hundated
    change (List.findSome? reading ((past ++ [_]) ++ [_])).map _ = _
    rw [List.findSome?_append,List.findSome?_append,hundated]
    rfl

theorem fell_concat {s : Stop} (h : Fell timeout s past) (he : reading e = none) :
    Fell timeout s (past ++ [e]) := by
  intro hdated
  have hbefore : deadlineOf timeout past ≠ none := fun hnone => hdated (undated_concat hnone he)
  rcases h hbefore with ht | hd | ⟨ev,hev,hf⟩
  · exact .inl ht
  · exact .inr (.inl hd)
  · exact .inr (.inr ⟨ev,List.mem_append_left _ hev,hf⟩)

theorem owning_handshakes {α : Type} {sh : Handle} {body : Vcl α} {Q : α → List Ev → Prop}
    (h : (handshaking timeout).wpe body Q (Fell timeout) past) :
    (handshaking timeout).wpe (owning sh body) Q (Fell timeout) past := by
  rw [owning,Contract.wpe_onFail]
  refine Contract.wpe_mono _ h (fun _ _ hq => hq) ?_
  intro s past hs
  rw [dropSession,Contract.wpe_bind,vppcomSessionClose,Contract.wpe_call]
  intro rc _
  exact ⟨unawaited_handshakes rfl,fell_concat hs rfl⟩

theorem configures_plain {sh : Handle} {c : Call} (h : Configures sh c) : Plain c := by
  cases h <;> rfl

theorem registers_plain {c : Call} (h : Registers c) : Plain c := by
  cases h <;> rfl

variable [Platform]

theorem connectAsync_handshakes (addr : SocketAddr) (source : Option SocketAddr) (r : VclReactor)
    (timeout : Duration) :
    (handshaking timeout).wpe (VclStream.connectAsync addr source r timeout) (fun _ => HeardLast)
      (Fell timeout) [] := by
  have hfell (e : Stop) (past : List Ev) (h : Unstarted timeout past) : Fell timeout e past :=
    fun hdated => absurd h.undated hdated
  rw [VclStream.connectAsync_eq,Contract.wpe_bind]
  refine plain_wpe (Prog.calls_mono (fun _ => registers_plain) registerWorkerThread_calls) ?_ hfell
    ⟨fun _ h => absurd h List.not_mem_nil,rfl⟩
  intro _ past hp
  rw [Contract.wpe_bind]
  refine plain_wpe (createTcp_calls rfl) ?_ hfell hp
  intro sh past hp
  apply owning_handshakes
  rw [Contract.wpe_bind]
  refine plain_wpe (dial_calls (fun _ => configures_plain) rfl) ?_ hfell hp
  intro _ past hp
  rw [Contract.wpe_bind]
  exact Contract.wpe_mono _ (waitEvent_handshakes r sh _ hp) (fun _ _ h => h) (fun _ _ h => h)

end Dialling

structure Verdict (timeout : Duration) (a : Ending) (past : List Ev) : Prop where
  heard : a = .ok → HeardLast past
  late : deadlineOf timeout past ≠ none → a = .ok ∨ a = .failed .timeout ∨ a = .dropped ∨
    ∃ e ∈ past, mqFailed e = true

def Closing (q : Routine) : Prop :=
  ∃ sh, q = .call (.sessionClose sh) (fun _ => .ret (.failed .timeout))

def Closes {α : Type} (x : Vcl α) : Prop :=
  (x.prog.bind (fun r => .ret (concluded r))).Upholds (fun e q => timerWon e = true → Closing q)

structure Dialled (timeout : Duration) (past : List Ev) (p : Routine) : Prop where
  closes : p.Upholds (fun e q => timerWon e = true → Closing q)
  answers : (handshaking timeout).wp p (Verdict timeout) past

section Dialled

variable {timeout : Duration} {past : List Ev} {e : Ev} {p q : Routine} {a : Ending}

theorem dialled_step (h : Dialled timeout past p) (hs : Prog.Step p e q) :
    Dialled timeout (past ++ [e]) q :=
  ⟨(Prog.upholds_step h.closes hs).2,(Contract.wp_step _ h.answers hs trivial).2⟩

theorem dialled_returns (h : Dialled timeout past p) (hr : p.Returns a) : Verdict timeout a past :=
  Contract.wp_returns _ h.answers hr

theorem owning_closes {α : Type} {sh : Handle} {body : Vcl α}
    (h : Escapes (fun e => timerWon e = true) (.err .timeout) body) : Closes (owning sh body) := by
  refine Prog.upholds_after (Prog.upholds_after ?_ ?_) (fun _ => trivial)
  · apply Prog.upholds_mono _ h
    intro e q hq hw
    rw [hq hw]
    exact ⟨sh,rfl⟩
  · intro r
    cases r with
    | ok a => trivial
    | error e => exact fun rc => ⟨nofun,trivial⟩

theorem plain_closes {α β : Type} {x : Vcl α} {f : α → Vcl β} (hx : x.Calls Plain)
    (hf : ∀ a, Closes (f a)) : Closes (x >>= f) := by
  have huntimed (e : Ev) (q : Routine) (he : Plain e.op) : timerWon e = true → Closing q :=
    fun hw => absurd hw (waits_untimed (fun _ _ _ h => Bool.noConfusion h) e he)
  rw [Closes,Fallible.bind_prog]
  refine Prog.upholds_bind huntimed hx ?_
  intro r
  cases r with
  | ok a => exact hf a
  | error e => trivial

variable [Platform]

theorem connectAsync_closes (addr : SocketAddr) (source : Option SocketAddr) (r : VclReactor)
    (timeout : Duration) : Closes (VclStream.connectAsync addr source r timeout) := by
  rw [VclStream.connectAsync_eq]
  apply plain_closes (Prog.calls_mono (fun _ => registers_plain) registerWorkerThread_calls)
  intro _
  apply plain_closes (createTcp_calls rfl)
  intro sh
  apply owning_closes
  have hdial : (VclStream.dial sh addr source r).Calls Plain :=
    dial_calls (fun _ => configures_plain) rfl
  apply escapes_bind (escapes_of_calls (waits_untimed (fun _ _ _ h => Bool.noConfusion h)) hdial)
  intro _
  exact escapes_bind (waitEvent_escapes r sh _ timeout) (fun _ => trivial)

theorem connectAsync_dialled (addr : SocketAddr) (source : Option SocketAddr) (r : VclReactor)
    (timeout : Duration) (b : Bool) :
    Dialled timeout [] (Chore.code b (.connectAsync addr source r timeout)) := by
  refine ⟨connectAsync_closes addr source r timeout,(Contract.wp_bind _).mpr ?_⟩
  refine Contract.wp_mono _ (connectAsync_handshakes addr source r timeout) ?_
  intro res past hres
  match res, hres with
  | .ok _, hres => exact ⟨fun _ => hres,fun _ => .inl rfl⟩
  | .error .dropped, hres => exact ⟨nofun,fun _ => .inr (.inr (.inl rfl))⟩
  | .error (.err e), hres =>
    refine ⟨nofun,?_⟩
    intro hdated
    rcases hres hdated with ht | hd | hf
    · cases ht
      exact .inr (.inl rfl)
    · cases hd
    · exact .inr (.inr (.inr hf))

end Dialled

def Lane.dials (l : Lane) : Option (VclReactor × Duration) :=
  match l.chore with
  | .connectAsync _ _ r timeout => some (r,timeout)
  | _ => none

def reports (r : VclReactor) (sh : Handle) : Ev → Bool
  | ⟨.epollWait vep _ _,(n,events)⟩ => decide (vep = r.vep) && (events.take n.toNat).any (fun ev =>
      decide (ev.data.toUInt32 = sh ∧ ev.events &&& epollout ≠ 0))
  | _ => false

def watch (i : ℕ) (r : VclReactor) (s : Option Handle × Bool) : Party × Ev → Option Handle × Bool
  | (.lane j,⟨.sessionConnect sh _,_⟩) => if j = i then (some sh,s.2) else s
  | (_,e) => (s.1,s.2 || s.1.any (fun sh => reports r sh e))

namespace Bench

def reported (R : Bench) (i : ℕ) (r : VclReactor) : Bool :=
  (R.log.foldl (watch i r) (none,false)).2

structure Warrants (R : Bench) (i : ℕ) (l : Lane) (r : VclReactor) (x : Party × Ev) : Prop where
  posted : ∀ n ∈ R.posts x.2.op, Expects l.past n → R.reported i r = true
  entered : x.1 = .lane i → ∀ n ∈ granted x.2, (R.notifies n).holdings = 0 ∨ R.reported i r = true
  polled : x.1 = .lane i → mqFailed x.2 = false

def Warranted (R R' : Bench) : Prop :=
  ∀ x ∈ R'.log.drop R.log.length, ∀ i < R.lanes.length, ∀ l ∈ R.lanes[i]?, ∀ d ∈ l.dials,
    R.Warrants i l d.1 x

structure Honoured [Platform] (R : Bench) : Prop where
  completed : ∀ (i : ℕ) (l : Lane) r timeout, R.lanes[i]? = some l → l.dials = some (r,timeout) →
    l.code.Returns .ok → R.reported i r = true
  expired : ∀ (i : ℕ) (l : Lane) r timeout due, R.lanes[i]? = some l → l.dials = some (r,timeout) →
    deadlineOf timeout l.past = some due → due ≤ R.clock → R.reported i r = false →
      ∀ a, l.code.Returns a → a = .failed .timeout ∨ a = .dropped
  expiring : ∀ (i : ℕ) (l : Lane) r timeout due v n d k, R.lanes[i]? = some l →
    l.dials = some (r,timeout) → deadlineOf timeout l.past = some due → due ≤ R.clock →
      l.code.Head (.select v n d) k → ∃ (R' : Bench) (l' : Lane), Later R R' ∧
        R'.lanes[i]? = some l' ∧ l'.chore = l.chore ∧ l'.code.Returns (.failed .timeout)

structure Grounded (R : Bench) (i : ℕ) (l : Lane) (r : VclReactor) : Prop where
  silent : ∀ n, Expects l.past n → (R.notifies n).holdings = 0 ∨ R.reported i r = true
  unbroken : ∀ e ∈ l.past, mqFailed e = false
  completed : l.code.Returns .ok → R.reported i r = true

section Reporting

variable {R R' : Bench} {i : ℕ} {l l' : Lane} {r : VclReactor} {timeout : Duration} {n : NotifyId}

theorem watch_keeps {s : Option Handle × Bool} {x : Party × Ev} (h : s.2 = true) :
    (watch i r s x).2 = true := by
  rw [watch.eq_def]
  split
  · split_ifs <;> exact h
  · simp [h]

theorem foldl_watch_keeps {s : Option Handle × Bool} {log : List (Party × Ev)} (h : s.2 = true) :
    (log.foldl (watch i r) s).2 = true := by
  induction log generalizing s with
  | nil => exact h
  | cons x log ih => exact ih (watch_keeps h)

theorem reported_later (h : R.log <+: R'.log) (hr : R.reported i r = true) :
    R'.reported i r = true := by
  obtain ⟨new,hnew⟩ := h
  rw [reported,← hnew,List.foldl_append]
  exact foldl_watch_keeps hr

theorem heard_awaits {e : Ev} (h : heard e = true) : ∃ n, awaited e.op = some n := by
  obtain ⟨op,x⟩ := e
  cases op with
  | select v n d => exact ⟨n,rfl⟩
  | recheck n => exact ⟨n,rfl⟩
  | _ => cases h

theorem warranted_at {w : Party} {e : Ev} (hw : Warranted R R') (hlog : R'.log = R.log ++ [(w,e)])
    (hl : R.lanes[i]? = some l) (hd : l.dials = some (r,timeout)) : R.Warrants i l r (w,e) := by
  have hmem : (w,e) ∈ R'.log.drop R.log.length := by
    rw [hlog,List.drop_left]
    exact List.mem_singleton_self _
  exact hw (w,e) hmem i (List.getElem?_eq_some_iff.mp hl).1 l hl (r,timeout) hd

theorem expects_before {past : List Ev} {e : Ev} (h : Expects (past ++ [e]) n) :
    Expects past n ∨ granted e = some n := by
  obtain ⟨hn,hends⟩ := h
  rw [List.filterMap_append] at hn
  rcases List.mem_append.mp hn with hpast | hlast
  · exact .inl ⟨hpast,fun e' he' => hends e' (List.mem_append_left _ he')⟩
  · cases hg : granted e with
    | none => simp [hg] at hlast
    | some m =>
      rw [List.filterMap_cons_some hg] at hlast
      rw [List.mem_singleton.mp hlast]
      exact .inr rfl

theorem granted_silent {e : Ev} (h : granted e = some n) : R.posts e.op = [] := by
  obtain ⟨op,x⟩ := e
  cases op with
  | waitersEntry vep sh => rfl
  | _ => cases h

variable [Platform]

theorem silent_step (h : Step R R') (hw : Warranted R R') (hl : R.lanes[i]? = some l)
    (hd : l.dials = some (r,timeout)) (he : Expects l.past n)
    (hs : (R.notifies n).holdings = 0 ∨ R.reported i r = true) :
    (R'.notifies n).holdings = 0 ∨ R'.reported i r = true := by
  rcases hs with hz | hr
  · rcases step_empty h hz with hz' | ⟨w,e,hlog,hn⟩
    · exact .inl hz'
    · exact .inr (reported_later (step_log h) ((warranted_at hw hlog hl hd).posted n hn he))
  · exact .inr (reported_later (step_log h) hr)

theorem silent_entry {e : Ev} (h : Step R R') (hw : Warranted R R') (hl : R.lanes[i]? = some l)
    (hd : l.dials = some (r,timeout)) (hlog : R'.log = R.log ++ [(.lane i,e)])
    (hn : granted e = some n) : (R'.notifies n).holdings = 0 ∨ R'.reported i r = true := by
  rcases (warranted_at hw hlog hl hd).entered rfl n hn with hz | hr
  · rcases step_empty h hz with hz' | ⟨w,e',hlog',hpost⟩
    · exact .inl hz'
    · rw [hlog] at hlog'
      have hlast := List.append_cancel_left hlog'
      cases hlast
      rw [granted_silent hn] at hpost
      cases hpost
  · exact .inr (reported_later (step_log h) hr)

theorem grounded_advance {e : Ev} {q : Routine} (h : Step R R') (hw : Warranted R R')
    (hl : R.lanes[i]? = some l) (hd : l.dials = some (r,timeout)) (hg : Grounded R i l r)
    (hdial : Dialled timeout l.past l.code) (hs : Prog.Step l.code e q)
    (hcall : (∃ sh cx, e.op = .waitPoll sh cx) ∨
      R'.log = R.log ++ [(.lane i,e)] ∧ ∃ T, R.touch (.lane i) e = some T) :
    Grounded R' i (l.advance e q) r := by
  constructor
  · intro n hn
    rcases expects_before hn with hbefore | hgrant
    · exact silent_step h hw hl hd hbefore (hg.silent n hbefore)
    · rcases hcall with ⟨sh,cx,hop⟩ | ⟨hlog,-⟩
      · obtain ⟨op,x⟩ := e
        cases hop
        cases hgrant
      · exact silent_entry h hw hl hd hlog hgrant
  · intro e' he'
    rcases List.mem_append.mp he' with hpast | hlast
    · exact hg.unbroken e' hpast
    · rw [List.mem_singleton.mp hlast]
      rcases hcall with ⟨sh,cx,hop⟩ | ⟨hlog,-⟩
      · obtain ⟨op,x⟩ := e
        cases hop
        rfl
      · exact (warranted_at hw hlog hl hd).polled rfl
  · intro hr
    obtain ⟨e',hlast,hheard⟩ := (dialled_returns (dialled_step hdial hs) hr).heard rfl
    rw [List.getLast?_concat] at hlast
    cases hlast
    obtain ⟨n,hn⟩ := heard_awaits hheard
    rcases hcall with ⟨sh,cx,hop⟩ | ⟨-,T,hT⟩
    · rw [hop] at hn
      cases hn
    · have hexpects := (Contract.wp_step _ hdial.answers hs trivial).1.1 n hn
      have hreported := (hg.silent n hexpects).resolve_left (touch_heard hT hn hheard)
      exact reported_later (step_log h) hreported

theorem lane_dialled (h : Later idle R) (hl : R.lanes[i]? = some l)
    (hd : l.dials = some (r,timeout)) : Dialled timeout l.past l.code := by
  refine lanes_invariant (I := fun l => l.dials = some (r,timeout) →
    Dialled timeout l.past l.code) ?_ ?_ h hl hd
  · intro d b hd
    cases d with
    | connectAsync addr source r' timeout' =>
      cases hd
      exact connectAsync_dialled addr source r timeout b
    | _ => cases hd
  · intro l e q ih hs hd
    exact dialled_step (ih hd) hs

abbrev WarrantedRun : Bench → Bench → Prop :=
  Relation.ReflTransGen (fun R R' => Step R R' ∧ Warranted R R')

theorem warranted_later (h : WarrantedRun R R') : Later R R' := by
  induction h with
  | refl => exact .refl
  | tail _ hs ih => exact ih.tail hs.1

theorem lane_grounded (h : WarrantedRun idle R) (hl : R.lanes[i]? = some l)
    (hd : l.dials = some (r,timeout)) : Grounded R i l r := by
  induction h generalizing i l with
  | refl => cases hl
  | tail hrun hs ih =>
    obtain ⟨hstep,hw⟩ := hs
    rcases step_lane hstep hl with ⟨l₀,hl₀,hm⟩ | ⟨-,d,b,rfl⟩
    · rcases moves_called hm with rfl | ⟨e,q,hq,rfl,hcall⟩
      · have hg := ih hl₀ hd
        exact ⟨fun n hn => silent_step hstep hw hl₀ hd hn (hg.silent n hn),hg.unbroken,
          fun hr => reported_later (step_log hstep) (hg.completed hr)⟩
      · exact grounded_advance hstep hw hl₀ hd (ih hl₀ hd)
          (lane_dialled (warranted_later hrun) hl₀ hd) hq hcall
    · refine ⟨fun n hn => (List.not_mem_nil hn.1).elim,fun e he => (List.not_mem_nil he).elim,?_⟩
      intro hr
      have hdial := lane_dialled ((warranted_later hrun).tail hstep) hl hd
      obtain ⟨e,hlast,-⟩ := (dialled_returns hdial hr).heard rfl
      cases hlast

theorem act_lane {e : Ev} {q : Routine} {T : Bench} (hl : R.lanes[i]? = some l)
    (hs : Prog.Step l.code e q) (he : ∀ sh cx, e.op ≠ .waitPoll sh cx)
    (ht : R.touch (.lane i) e = some T) :
    ∃ R', Step R R' ∧ R'.lanes[i]? = some (l.advance e q) := by
  refine ⟨_,.act hl hs he ht,?_⟩
  obtain ⟨W,m,N,S,hS⟩ := touch_store_frame ht (l.arms e)
  rw [hS]
  exact List.getElem?_set_self (List.getElem?_eq_some_iff.mp hl).1

theorem dial_expires {v : Handle} {d : Instant} {k : Reply (.select v n d) → Routine}
    (hdial : Dialled timeout l.past l.code) (hl : R.lanes[i]? = some l) (hd : d ≤ R.clock)
    (hk : l.code.Head (.select v n d) k) :
    ∃ (R' : Bench) (l' : Lane), Later R R' ∧ R'.lanes[i]? = some l' ∧ l'.chore = l.chore ∧
      l'.code.Returns (.failed .timeout) := by
  have hselect := Prog.head_step hk (R.clock,.elapsed)
  obtain ⟨R₁,hstep₁,hl₁⟩ := act_lane hl hselect (unpolled rfl) (touch_elapsed.mpr ⟨rfl,hd,rfl⟩)
  obtain ⟨sh,hclosing⟩ := (Prog.upholds_step hdial.closes hselect).1 rfl
  rw [hclosing] at hl₁
  have hclose := Prog.head_step (Prog.Head.call (o := Call.sessionClose sh)
    (k := fun _ => (.ret (.failed .timeout) : Routine))) (0 : Int)
  obtain ⟨R₂,hstep₂,hl₂⟩ := act_lane hl₁ hclose (unpolled rfl) rfl
  exact ⟨R₂,_,.tail (.single hstep₁) hstep₂,hl₂,rfl,.ret _⟩

theorem connect_honoured (R : Bench) (h : WarrantedRun idle R) : R.Honoured := by
  constructor
  · intro i l r timeout hl hd hr
    exact (lane_grounded h hl hd).completed hr
  · intro i l r timeout due hl hd hdue _ hunreported a ha
    have hg := lane_grounded h hl hd
    have hlate := (dialled_returns (lane_dialled (warranted_later h) hl hd) ha).late
    rw [hdue] at hlate
    rcases hlate nofun with rfl | ht | hdrop | ⟨e,he,hf⟩
    · rw [hg.completed ha] at hunreported
      cases hunreported
    · exact .inl ht
    · exact .inr hdrop
    · rw [hg.unbroken e he] at hf
      cases hf
  · intro i l r timeout due v n d k hl hd hdue hle hk
    have hdial := lane_dialled (warranted_later h) hl hd
    have hdate := (Contract.wp_step _ hdial.answers (Prog.head_step hk (R.clock,.elapsed)) trivial).1.2
      v n d rfl
    obtain rfl : due = d := Option.some.inj (hdue.symm.trans hdate)
    exact dial_expires hdial hl hle hk

end Reporting

instance instDecidableWarrants (R : Bench) (i : ℕ) (l : Lane) (r : VclReactor) (x : Party × Ev) :
    Decidable (R.Warrants i l r x) :=
  decidable_of_iff ((∀ n ∈ R.posts x.2.op, Expects l.past n → R.reported i r = true) ∧
    (x.1 = .lane i → ∀ n ∈ granted x.2, (R.notifies n).holdings = 0 ∨ R.reported i r = true) ∧
      (x.1 = .lane i → mqFailed x.2 = false))
    ⟨fun h => ⟨h.1,h.2.1,h.2.2⟩,fun h => ⟨h.1,h.2,h.3⟩⟩

instance instDecidableWarranted : DecidableRel Warranted := fun R R' =>
  inferInstanceAs (Decidable (∀ x ∈ R'.log.drop R.log.length, ∀ i < R.lanes.length,
    ∀ l ∈ R.lanes[i]?, ∀ d ∈ l.dials, R.Warrants i l d.1 x))

theorem tour_warranted [Platform] {R R' : Bench} {ms : List Cue}
    (h : (R :: R.tour ms).IsChain Warranted) (hR : R' ∈ R :: R.tour ms) : WarrantedRun R R' := by
  induction ms generalizing R with
  | nil =>
    rw [tour] at hR
    rw [List.mem_singleton.mp hR]
  | cons m ms ih =>
    rw [tour] at h hR
    split at h
    · next R₁ hplay =>
      rw [hplay] at hR
      rcases List.mem_cons.mp hR with rfl | hmem
      · exact .refl
      · obtain ⟨hw,hchain⟩ := List.isChain_cons_cons.mp h
        exact .head ⟨play_step hplay,hw⟩ (ih hchain hmem)
    · next hplay =>
      rw [hplay] at hR
      rw [List.mem_singleton.mp hR]

def greeting : (c : Call) → Reply c
  | .epollWait _ _ _ => ((1 : Int),[⟨epollout,1⟩])
  | c => obliging c

def dialling : List Cue :=
  .spawn (.connectAsync (.new .unspecifiedV4 53) none ⟨9⟩ (secs 5)) ::
    List.replicate 7 (.act 0 obliging) ++ [.pend 0]

def greeted : List Cue :=
  dialling ++ [.spawn (.other ((VclReactor.drainEvents ⟨9⟩).prog.bind (fun r => .ret (concluded r)))),
    .act 1 greeting,.act 1 greeting,.act 0 obliging]

def jostled : List Cue :=
  dialling ++ [.spawn (.other ((VclReactor.tick ⟨9⟩).prog.bind (fun r => .ret (concluded r)))),
    .act 1 obliging,.act 1 obliging,.act 0 obliging]

def through (R : Bench) (i : ℕ) (r : VclReactor) (timeout : Duration) : Bool :=
  R.lanes[i]?.any (fun l => decide (l.dials = some (r,timeout) ∧ l.code.outcome 20 = some .ok))

theorem through_returns {R : Bench} {i : ℕ} {r : VclReactor} {timeout : Duration}
    (h : R.through i r timeout = true) : ∃ l : Lane, R.lanes[i]? = some l ∧
      l.dials = some (r,timeout) ∧ l.code.Returns .ok := by
  obtain ⟨l,hl,hx⟩ := (Option.any_eq_true _ _).mp h
  obtain ⟨hd,ho⟩ := of_decide_eq_true hx
  exact ⟨l,hl,hd,Prog.outcome_returns ho⟩

theorem connect_honoured_greeted : ∃ (R : Bench) (l : Lane), @WarrantedRun host idle R ∧
    R.lanes[0]? = some l ∧ l.dials = some (⟨9⟩,secs 5) ∧ l.code.Returns .ok ∧
      R.reported 0 ⟨9⟩ = true ∧ @Honoured host R := by
  obtain ⟨R,hR,hx⟩ := @tour_last idle host (fun R => R.through 0 ⟨9⟩ (secs 5)) greeted
    (by decide +kernel)
  have hrun := @tour_warranted host idle R greeted (by decide +kernel) hR
  obtain ⟨l,hl,hd,hr⟩ := through_returns hx
  have hkept := @connect_honoured host R hrun
  exact ⟨R,l,hrun,hl,hd,hr,(@Honoured.completed host R hkept) 0 l ⟨9⟩ (secs 5) hl hd hr,hkept⟩

theorem tick_completes_connect : ∃ (R : Bench) (l : Lane), @Later host idle R ∧
    R.lanes[0]? = some l ∧ l.dials = some (⟨9⟩,secs 5) ∧ l.code.Returns .ok ∧
      R.reported 0 ⟨9⟩ = false ∧ ¬ @Honoured host R := by
  obtain ⟨R,hR,hx⟩ := @tour_last idle host
    (fun R => R.through 0 ⟨9⟩ (secs 5) && !R.reported 0 ⟨9⟩) jostled (by decide +kernel)
  obtain ⟨ht,hn⟩ := (Bool.and_eq_true _ _).mp hx
  obtain ⟨l,hl,hd,hr⟩ := through_returns ht
  have hunreported : R.reported 0 ⟨9⟩ = false := by simpa using hn
  refine ⟨R,l,@trail_later host R _ (@tour_chain host idle jostled) hR,hl,hd,hr,hunreported,?_⟩
  intro hkept
  rw [@Honoured.completed host R hkept 0 l ⟨9⟩ (secs 5) hl hd hr] at hunreported
  cases hunreported

end Bench

end VclRs
