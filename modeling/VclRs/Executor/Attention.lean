import VclRs.Executor.Bench
import VclRs.Interaction.Prompt
import VclRs.Streams.Polling

namespace VclRs

open Interaction Fallible

def timerWon : Ev → Bool
  | ⟨.select _ _ _,(_,.elapsed)⟩ => true
  | _ => false

def waitFailed : Ev → Bool
  | ⟨.waitPoll _ _,.ready (.error .timeout)⟩ => true
  | _ => false

def Ending.TimedOut : Ending → Prop
  | .failed e => e = .timeout
  | .ioFailed e => e = vclToIo .timeout
  | _ => False

namespace Chore

def session : Chore → Option (Handle × Handle)
  | .read st _ => some (st.reactor.vep,st.handle)
  | .writeAll st _ => some (st.reactor.vep,st.handle)
  | .sendTo d _ _ => some (d.reactor.vep,d.handle)
  | .pollRead st _ _ => some (st.reactor.vep,st.handle)
  | .pollWrite st _ _ => some (st.reactor.vep,st.handle)
  | _ => none

def answer (c : Chore) (e : Ev) : Option Ending :=
  match c.slot with
  | none => if timerWon e then some (.failed .timeout) else none
  | some _ => if waitFailed e then some (.ioFailed (vclToIo .timeout)) else none

end Chore

def attending (mine : List Ev → NotifyId → Prop) : Contract Call Reply (List Ev) where
  rely _ _ := True
  guar past e := ∀ n, awaited e.op = some n → mine past n
  next past e := past ++ [e]

def entered (key : Handle × Handle) (past : List Ev) (n : NotifyId) : Prop :=
  ⟨.waitersEntry key.1 key.2,n⟩ ∈ past

def ByTimer (e : Stop) (past : List Ev) : Prop :=
  e = .err .timeout → ∃ ev, past.getLast? = some ev ∧ timerWon ev = true

section Waiting

variable {mine : List Ev → NotifyId → Prop} {r : VclReactor} {n : NotifyId} {d : Instant}
variable {past : List Ev}

theorem waits_untimed {C : Call → Prop} (hC : ∀ v n d, ¬ C (.select v n d)) (e : Ev) (h : C e.op) :
    ¬ timerWon e = true := by
  obtain ⟨op,x⟩ := e
  cases op with
  | select v n d => exact absurd h (hC v n d)
  | _ => exact nofun

theorem waitLoop_escapes (r : VclReactor) (n : NotifyId) (d : Instant) :
    Escapes (fun e => timerWon e = true) (.err .timeout) (r.waitLoop n d) := by
  have hquiet {α : Type} {x : Vcl α} (hx : x.Calls (fun c => ∀ v n d, c ≠ .select v n d)) :
      Escapes (fun e => timerWon e = true) (.err .timeout) x :=
    escapes_of_calls (waits_untimed (fun v n d h => h v n d rfl)) hx
  apply escapes_loop
  intro _
  rintro ⟨now,sel⟩
  cases sel with
  | elapsed => exact ⟨fun _ => rfl,trivial⟩
  | readFailed e => exact ⟨nofun,trivial⟩
  | notified => exact ⟨nofun,trivial⟩
  | dropped => exact ⟨nofun,trivial⟩
  | readable =>
    refine ⟨nofun,?_⟩
    apply hquiet
    refine calls_bind (drainEvents_calls nofun nofun) (fun _ => ?_)
    refine calls_bind (calls_call nofun) (fun _ => ?_)
    refine calls_bind (calls_call nofun) ?_
    rintro ⟨now',again⟩
    cases again <;> trivial

theorem unawaited_attends {e : Ev} (h : awaited e.op = none) : (attending mine).guar past e := by
  intro n hn
  rw [h] at hn
  cases hn

theorem waitLoop_attends (hgrow : ∀ past e, mine past n → mine (past ++ [e]) n) (h : mine past n) :
    (attending mine).wpe (r.waitLoop n d) (fun _ _ => True) ByTimer past := by
  refine waitLoop_rule (I := fun past => mine past n) ?_ ?_ ?_ ?_ h
  · rintro past ⟨now,sel⟩ hp _
    refine ⟨?_,?_⟩
    · rintro m ⟨⟩
      exact hp
    · cases sel with
      | readFailed e => exact nofun
      | readable => exact hgrow past _ hp
      | notified => trivial
      | elapsed => exact fun _ => ⟨_,List.getLast?_concat,rfl⟩
      | dropped => exact nofun
  · rintro past ⟨op,x⟩ hp hop _
    cases hop with
    | drain => exact ⟨unawaited_attends rfl,hgrow past _ hp⟩
    | notify sh => exact ⟨unawaited_attends rfl,hgrow past _ hp⟩
  · intro past x hp _
    exact ⟨unawaited_attends rfl,hgrow past _ hp⟩
  · rintro past ⟨now,again⟩ hp _
    refine ⟨?_,?_⟩
    · rintro m ⟨⟩
      exact hp
    · cases again with
      | notified => trivial
      | elapsed => exact hgrow past _ hp
      | dropped => exact nofun

end Waiting

section Methods

variable {key : Handle × Handle} {past : List Ev}

theorem entered_grows {n : NotifyId} (past : List Ev) (e : Ev) (h : entered key past n) :
    entered key (past ++ [e]) n :=
  List.mem_append_left _ h

theorem waitEvent_escapes (r : VclReactor) (sh : Handle) (mask : UInt32) (timeout : Duration) :
    Escapes (fun e => timerWon e = true) (.err .timeout) (r.waitEvent sh mask timeout) := by
  intro n
  refine ⟨nofun,?_⟩
  intro now
  exact ⟨nofun,waitLoop_escapes r n (now + timeout)⟩

theorem waitEvent_attends (r : VclReactor) (sh : Handle) (mask : UInt32) (timeout : Duration) :
    (attending (entered (r.vep,sh))).wpe (r.waitEvent sh mask timeout) (fun _ _ => True) ByTimer
      past := by
  rw [VclReactor.waitEvent,Contract.wpe_bind,Contract.wpe_call]
  intro n _
  refine ⟨unawaited_attends rfl,?_⟩
  rw [Contract.wpe_bind,Contract.wpe_call]
  intro now _
  refine ⟨unawaited_attends rfl,?_⟩
  have hentered : entered (r.vep,sh) (past ++ [⟨.waitersEntry r.vep sh,n⟩]) n := by simp [entered]
  exact waitLoop_attends entered_grows (entered_grows _ _ hentered)

theorem transfers_untimed {α : Type} {sh : Handle} {x : Vcl α} (h : x.Calls (Transfers sh)) :
    Escapes (fun e => timerWon e = true) (.err .timeout) (attempt x) :=
  escapes_of_calls (waits_untimed nofun) (calls_attempt h)

theorem err_escapes {α : Type} (e : VclError) :
    Escapes (fun e => timerWon e = true) (.err .timeout) (err e : Vcl α) := trivial

variable [Platform]

theorem read_escapes (st : VclStream) (buf : List UInt8) :
    Escapes (fun e => timerWon e = true) (.err .timeout) (st.read buf) := by
  apply escapes_loop
  intro _
  apply escapes_bind (transfers_untimed (sessionRead_calls buf))
  intro x
  cases x with
  | ok x => exact escapes_ite (err_escapes _) trivial
  | error e =>
    apply escapes_ite _ (err_escapes e)
    exact escapes_bind (waitEvent_escapes _ _ _ _) (fun _ => trivial)

theorem writeAll_escapes (st : VclStream) (buf : List UInt8) :
    Escapes (fun e => timerWon e = true) (.err .timeout) (st.writeAll buf) := by
  apply escapes_loop
  intro pos
  apply escapes_ite
  · apply escapes_bind (transfers_untimed (sessionWrite_calls _))
    intro x
    cases x with
    | ok n => trivial
    | error e =>
      apply escapes_ite _ (err_escapes e)
      exact escapes_bind (waitEvent_escapes _ _ _ _) (fun _ => trivial)
  · trivial

theorem sendTo_escapes (d : VclDgramSocket) (buf : List UInt8) (dst : SocketAddr) :
    Escapes (fun e => timerWon e = true) (.err .timeout) (d.sendTo buf dst) := by
  apply escapes_loop
  intro _
  apply escapes_bind (transfers_untimed (sendto_calls buf dst))
  intro x
  cases x with
  | ok n => trivial
  | error e =>
    apply escapes_ite _ (err_escapes e)
    exact escapes_bind (waitEvent_escapes _ _ _ _) (fun _ => trivial)

theorem refused_untimed (rc : Int) : ByTimer (.err (fromRc rc)) past := by
  intro h
  exact absurd (Stop.err.inj h) (fromRc_ne_timeout rc)

theorem read_attends (st : VclStream) (buf : List UInt8) :
    (attending (entered (st.reactor.vep,st.handle))).wpe (st.read buf) (fun _ _ => True) ByTimer
      past := by
  refine Contract.wpe_loop _ (fun _ _ => True) ?_ trivial
  intro _ past _
  rw [Contract.wpe_bind]
  apply sessionRead_wpe
  intro x _
  refine ⟨unawaited_attends rfl,?_,?_⟩
  · intro _
    rw [Contract.wpe_ite]
    split_ifs with ht
    · rw [Contract.wpe_bind]
      exact waitEvent_attends _ _ _ _
    · exact refused_untimed _
  · intro _
    rw [Contract.wpe_ite]
    split_ifs with hz
    · exact nofun
    · trivial

theorem writeAll_attends (st : VclStream) (buf : List UInt8) :
    (attending (entered (st.reactor.vep,st.handle))).wpe (st.writeAll buf) (fun _ _ => True) ByTimer
      past := by
  refine Contract.wpe_loop _ (fun _ _ => True) ?_ trivial
  intro pos past _
  rw [Contract.wpe_ite]
  split_ifs with hpos
  · rw [Contract.wpe_bind]
    apply sessionWrite_wpe
    intro rc _
    refine ⟨unawaited_attends rfl,?_,fun _ => trivial⟩
    intro _
    rw [Contract.wpe_ite]
    split_ifs with ht
    · rw [Contract.wpe_bind]
      exact waitEvent_attends _ _ _ _
    · exact refused_untimed _
  · trivial

theorem sendTo_attends (d : VclDgramSocket) (buf : List UInt8) (dst : SocketAddr) :
    (attending (entered (d.reactor.vep,d.handle))).wpe (d.sendTo buf dst) (fun _ _ => True) ByTimer
      past := by
  refine Contract.wpe_loop _ (fun _ _ => True) ?_ trivial
  intro _ past _
  simp only [sendto,checkRc,Contract.wpe_bind,wpe_attempt,Contract.wpe_call,wpe_rejectIf,
    Contract.wpe_pure]
  intro rc _
  refine ⟨unawaited_attends rfl,?_⟩
  split_ifs with hneg hwb
  · rw [Contract.wpe_bind]
    exact waitEvent_attends _ _ _ _
  · exact refused_untimed _
  · trivial

omit [Platform] in
theorem vclToIo_timeout {e : VclError} (h : vclToIo e = vclToIo .timeout) : e = .timeout := by
  have hkind := congrArg IoError.kind h
  have htext := congrArg (fun x => x.message.toList.head?) h
  cases e with
  | timeout => rfl
  | api message rc =>
    change ("VCL call failed: " ++ message ++ " (rc=" ++ toString rc ++ ")").toList.head? =
      "timed out".toList.head? at htext
    simp [String.toList_append] at htext
  | io e =>
    change ("I/O error: " ++ e.message).toList.head? = "timed out".toList.head? at htext
    simp [String.toList_append] at htext
  | closed => cases hkind
  | notConnected => exact absurd htext (by decide)
  | wouldBlock => cases hkind

def ByPoll {α : Type} (x : Poll (Except IoError α) × Bool) (past : List Ev) : Prop :=
  (pollConcluded (.ok x)).TimedOut → ∃ ev, past.getLast? = some ev ∧ waitFailed ev = true

omit [Platform] in
theorem polling_attends {α β : Type} {st : VclStream} {cx : ℕ} {io : Vcl α}
    {settle : Except VclError α → Except IoError β} {mine : List Ev → NotifyId → Prop}
    (hio : ∀ past, (attending mine).wpe (attempt io) (fun x past => match x with
      | .ok x => ByPoll (.ready (settle (.ok x)),false) past
      | .error e => ¬ e.transient → ByPoll (.ready (settle (.error e)),false) past)
      (fun _ _ => False) past) (pending : Bool) :
    (attending mine).wpe (st.polling cx io settle pending) ByPoll (fun _ _ => False) past := by
  refine polling_wpe (fun _ _ => True) ?_ ?_ trivial
  · intro past _ p _
    refine ⟨unawaited_attends rfl,?_⟩
    cases p with
    | pending => exact False.elim
    | ready v =>
      cases v with
      | error e =>
        intro h
        obtain rfl := vclToIo_timeout h
        exact ⟨_,List.getLast?_concat,rfl⟩
      | ok _ => trivial
  · intro past _
    refine Contract.wpe_mono _ (hio past) ?_ (fun _ _ h => h)
    intro x past hx
    cases x with
    | ok x => exact hx
    | error e =>
      dsimp only at hx ⊢
      split_ifs with ht
      · intro n _
        exact ⟨unawaited_attends rfl,fun now _ => ⟨unawaited_attends rfl,trivial⟩⟩
      · exact hx ht

theorem pollRead_attends {mine : List Ev → NotifyId → Prop} (st : VclStream) (pending : Bool)
    (cx : ℕ) (unfilled : List UInt8) :
    (attending mine).wpe (st.pollRead pending cx unfilled) ByPoll (fun _ _ => False) past := by
  rw [VclStream.pollRead_eq]
  apply polling_attends
  intro past
  apply sessionRead_wpe
  intro x _
  refine ⟨unawaited_attends rfl,?_,fun _ h => h.elim⟩
  intro _ _
  rw [VclStream.readSettled]
  split_ifs with hc
  · exact False.elim
  · intro h
    exact absurd (vclToIo_timeout h) (fromRc_ne_timeout _)

theorem pollWrite_attends {mine : List Ev → NotifyId → Prop} (st : VclStream) (pending : Bool)
    (cx : ℕ) (buf : List UInt8) :
    (attending mine).wpe (st.pollWrite pending cx buf) ByPoll (fun _ _ => False) past := by
  rw [VclStream.pollWrite_eq]
  apply polling_attends
  intro past
  apply sessionWrite_wpe
  intro rc _
  refine ⟨unawaited_attends rfl,?_,fun _ h => h.elim⟩
  intro _ _ h
  exact absurd (vclToIo_timeout h) (fromRc_ne_timeout _)

def Relays {α : Type} (p : Prog Call Reply (Except Stop (Poll (Except IoError α) × Bool))) : Prop :=
  p.Upholds (fun e q =>
    waitFailed e = true → q = .ret (.ok (.ready (.error (vclToIo .timeout)),false)))

omit [Platform] in
theorem polling_relays {α β : Type} {st : VclStream} {cx : ℕ} {io : Vcl α}
    {settle : Except VclError α → Except IoError β} {sh : Handle} (hio : io.Calls (Transfers sh))
    (pending : Bool) : Relays (st.polling cx io settle pending).prog := by
  have hother {e : Ev} {q : Prog Call Reply (Except Stop (Poll (Except IoError β) × Bool))}
      (h : waitFailed e = false) :
      waitFailed e = true → q = .ret (.ok (.ready (.error (vclToIo .timeout)),false)) := by
    intro hw
    rw [h] at hw
    cases hw
  have hquiet {γ : Type} {x : Vcl γ} (hx : x.Calls (fun c => ∀ sh cx, c ≠ .waitPoll sh cx))
      {f : Except Stop γ → Prog Call Reply (Except Stop (Poll (Except IoError β) × Bool))}
      (hf : ∀ r, Relays (f r)) : Relays (x.prog.bind f) := by
    refine Prog.upholds_bind ?_ hx hf
    rintro ⟨op,x⟩ q he hw
    cases op with
    | waitPoll sh cx => exact absurd rfl (he sh cx)
    | _ => cases hw
  refine Fallible.upholds_loop (fun _ => True) ?_ trivial
  intro pending f _ hagain hdone hfail
  have htry : Relays ((st.trying io settle).prog.bind f) := by
    rw [VclStream.trying,Fallible.bind_prog]
    have htransfer : (attempt io).Calls (fun c => ∀ sh cx, c ≠ .waitPoll sh cx) := by
      refine Prog.calls_mono ?_ (calls_attempt hio)
      rintro c hc sh cx rfl
      cases hc
    apply hquiet htransfer
    intro r
    cases r with
    | error e =>
      change Relays (f (.error e))
      rw [hfail]
      trivial
    | ok y =>
      cases y with
      | ok x =>
        change Relays (f (.ok (.inr _)))
        rw [hdone]
        trivial
      | error e =>
        dsimp only
        split_ifs with ht
        · intro n
          refine ⟨hother rfl,?_⟩
          intro now
          exact ⟨hother rfl,hagain true trivial⟩
        · change Relays (f (.ok (.inr _)))
          rw [hdone]
          trivial
  cases pending with
  | false => exact htry
  | true =>
    intro p
    cases p with
    | pending =>
      refine ⟨hother rfl,?_⟩
      change Relays (f (.ok (.inr _)))
      rw [hdone]
      trivial
    | ready v =>
      cases v with
      | error e =>
        change (_ → f (.ok (.inr (.ready (.error (vclToIo e)),false))) = _) ∧ Relays (f (.ok (.inr _)))
        rw [hdone]
        refine ⟨?_,trivial⟩
        intro hw
        cases e with
        | timeout => rfl
        | _ => cases hw
      | ok _ => exact ⟨hother rfl,htry⟩

theorem pollRead_relays (st : VclStream) (pending : Bool) (cx : ℕ) (unfilled : List UInt8) :
    Relays (st.pollRead pending cx unfilled).prog := by
  rw [VclStream.pollRead_eq]
  exact polling_relays (sessionRead_calls unfilled) pending

theorem pollWrite_relays (st : VclStream) (pending : Bool) (cx : ℕ) (buf : List UInt8) :
    Relays (st.pollWrite pending cx buf).prog := by
  rw [VclStream.pollWrite_eq]
  exact polling_relays (sessionWrite_calls buf) pending

end Methods

structure Attentive (c : Chore) (key : Handle × Handle) (past : List Ev) (p : Routine) : Prop where
  served : ∀ e ∈ past, Serves key.1 key.2 e.op
  serves : p.Calls (Serves key.1 key.2)
  prompt : p.Upholds (fun e q => ∀ a, c.answer e = some a → q = .ret a)
  attends : (attending (entered key)).wp p
    (fun a past => a.TimedOut → ∃ e, past.getLast? = some e ∧ c.answer e = some a) past

section Attention

variable {α : Type} {c : Chore} {key : Handle × Handle} {past : List Ev} {p : Routine}

theorem attentive_after {x : Vcl α} {f : Except Stop α → Ending}
    (hs : x.Calls (Serves key.1 key.2))
    (hx : x.prog.Upholds (fun e q => ∀ a, c.answer e = some a → ∃ r, q = .ret r ∧ f r = a))
    (ha : (attending (entered key)).wp x.prog (fun r past => (f r).TimedOut →
      ∃ e, past.getLast? = some e ∧ c.answer e = some (f r)) []) :
    Attentive c key [] (x.prog.bind (fun r => .ret (f r))) := by
  refine ⟨fun _ h => absurd h List.not_mem_nil,Prog.calls_bind hs (fun _ => trivial),?_,?_⟩
  · refine Prog.upholds_after (Prog.upholds_mono ?_ hx) (fun _ => trivial)
    intro e q hq a he
    obtain ⟨r,rfl,rfl⟩ := hq a he
    rfl
  · exact (Contract.wp_bind _).mpr ha

theorem attentive_timer {x : Vcl α} (hc : c.slot = none) (hs : x.Calls (Serves key.1 key.2))
    (hx : Escapes (fun e => timerWon e = true) (.err .timeout) x)
    (ha : (attending (entered key)).wpe x (fun _ _ => True) ByTimer []) :
    Attentive c key [] (x.prog.bind (fun r => .ret (concluded r))) := by
  have hanswer (e : Ev) : c.answer e = if timerWon e then some (.failed .timeout) else none := by
    rw [Chore.answer,hc]
  refine attentive_after hs (Prog.upholds_mono ?_ hx) (Contract.wp_mono _ ha ?_)
  · intro e q hq a he
    rw [hanswer] at he
    split_ifs at he with hw
    cases he
    exact ⟨_,hq hw,rfl⟩
  · intro r past hr hout
    match r, hr, hout with
    | .error (.err e), hr, hout =>
      obtain rfl : e = .timeout := hout
      obtain ⟨ev,hlast,hw⟩ := hr rfl
      exact ⟨ev,hlast,by rw [hanswer,if_pos hw]; rfl⟩

theorem attentive_poll {x : Vcl (Poll (Except IoError α) × Bool)} {s : Berth} (hc : c.slot = some s)
    (hs : x.Calls (Serves key.1 key.2)) (hx : Relays x.prog)
    (ha : (attending (entered key)).wpe x ByPoll (fun _ _ => False) []) :
    Attentive c key [] (x.prog.bind (fun r => .ret (pollConcluded r))) := by
  have hanswer (e : Ev) : c.answer e =
      if waitFailed e then some (.ioFailed (vclToIo .timeout)) else none := by
    rw [Chore.answer,hc]
  refine attentive_after hs (Prog.upholds_mono ?_ hx) (Contract.wp_mono _ ha ?_)
  · intro e q hq a he
    rw [hanswer] at he
    split_ifs at he with hw
    cases he
    exact ⟨_,hq hw,rfl⟩
  · intro r past hr hout
    match r, hr, hout with
    | .ok (.ready (.error e),b), hr, hout =>
      obtain ⟨ev,hlast,hw⟩ := hr hout
      obtain rfl : e = vclToIo .timeout := hout
      exact ⟨ev,hlast,by rw [hanswer,if_pos hw]; rfl⟩

theorem attentive_step {e : Ev} {q : Routine} (h : Attentive c key past p) (hs : Prog.Step p e q) :
    Attentive c key (past ++ [e]) q := by
  obtain ⟨hop,hserves⟩ := Prog.calls_step h.serves hs
  refine ⟨?_,hserves,(Prog.upholds_step h.prompt hs).2,(Contract.wp_step _ h.attends hs trivial).2⟩
  intro e' he'
  rcases List.mem_append.mp he' with hpast | hlast
  · exact h.served e' hpast
  · rw [List.mem_singleton.mp hlast]
    exact hop

theorem attentive_returns {e : Ev} {q : Routine} {a : Ending} (h : Attentive c key past p)
    (hs : Prog.Step p e q) (hq : q.Returns a) (ha : a.TimedOut) : c.answer e = some a := by
  obtain ⟨e',hlast,hans⟩ := Contract.wp_returns _ (attentive_step h hs).attends hq ha
  rw [List.getLast?_concat] at hlast
  cases hlast
  exact hans

variable [Platform]

theorem chore_attentive (hc : c.session = some key) (b : Bool) : Attentive c key [] (c.code b) := by
  cases c with
  | read st buf =>
    cases hc
    exact attentive_timer rfl (read_calls st buf) (read_escapes st buf) (read_attends st buf)
  | writeAll st buf =>
    cases hc
    exact attentive_timer rfl (writeAll_calls st buf) (writeAll_escapes st buf) (writeAll_attends st buf)
  | sendTo d buf dst =>
    cases hc
    exact attentive_timer rfl (sendTo_calls d buf dst) (sendTo_escapes d buf dst) (sendTo_attends d buf dst)
  | pollRead st cx unfilled =>
    cases hc
    exact attentive_poll rfl (pollRead_calls st b cx unfilled) (pollRead_relays st b cx unfilled)
      (pollRead_attends st b cx unfilled)
  | pollWrite st cx buf =>
    cases hc
    exact attentive_poll rfl (pollWrite_calls st b cx buf) (pollWrite_relays st b cx buf)
      (pollWrite_attends st b cx buf)
  | connectAsync => cases hc
  | other p => cases hc

end Attention

end VclRs
