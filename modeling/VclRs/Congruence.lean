import VclRs.Interaction.Likeness
import VclRs.Footprint
import VclRs.Schedule

namespace VclRs

open Interaction Fallible

def talks (sh : Handle) : Ev → Bool
  | ⟨.sessionRead x _,_⟩ => decide (x = sh)
  | ⟨.sessionWrite x _,_⟩ => decide (x = sh)
  | _ => false

def talk (sh : Handle) (tr : List Ev) : List Ev := tr.filter (talks sh)

def waited : Ev → Bool
  | ⟨.select _ _ _,(_,.readFailed _)⟩ => false
  | ⟨.select _ _ _,(_,.dropped)⟩ => false
  | ⟨.recheck _,(_,.dropped)⟩ => false
  | _ => true

abbrev Waited (e : Ev) : Prop := waited e = true

def Before (deadline : Instant) : Ev → Prop
  | ⟨.instantNow,now⟩ => now < deadline
  | _ => True

def toSync (sh : Handle) : Likening Call Reply := ⟨talks sh,Waited,fun _ => True⟩

def toAsync (sh : Handle) (deadline : Instant) : Likening Call Reply := ⟨talks sh,Before deadline,Waited⟩

section Turns

variable {σ α β : Type}

def patiently (pause : Vcl Unit) (s : σ) (f : α → Vcl (σ ⊕ β)) : Except VclError α → Vcl (σ ⊕ β)
  | .ok a => f a
  | .error e => if e.transient then do
      pause
      pure (.inl s)
    else err e

theorem patiently_covers {L : Likening Call Reply} {pause pause' : Vcl Unit} {s : σ}
    {f : α → Vcl (σ ⊕ β)} (hf : ∀ a, L.Covers (f a) (f a)) (h : L.Covers pause pause')
    (x : Except VclError α) : L.Covers (patiently pause s f x) (patiently pause' s f x) := by
  cases x with
  | ok a => exact hf a
  | error e =>
    rw [patiently,patiently]
    split_ifs with ht
    · exact Likening.covers_bind h (fun _ => Likening.covers_self (P := fun _ => False) (by simp) trivial)
    · exact Likening.covers_self (P := fun _ => False) (by simp) trivial

variable [Platform]

def taken (s : ℕ × List UInt8) (x : ℕ × List UInt8) : Vcl ((ℕ × List UInt8) ⊕ List UInt8) :=
  if x.1 = 0 then err .closed else pure (.inl (s.1 + x.1,s.2.take s.1 ++ x.2))

def VclStream.readTurn (st : VclStream) (s : ℕ × List UInt8) : Vcl ((ℕ × List UInt8) ⊕ List UInt8) :=
  if s.1 < s.2.length then
    attempt (sessionRead st.handle (s.2.drop s.1)) >>=
      patiently (st.reactor.waitReadable st.handle (secs 300)) s (taken s)
  else pure (.inr s.2)

def readTurnSync (sh vep : Handle) (deadline : Instant) (s : ℕ × List UInt8) :
    Vcl ((ℕ × List UInt8) ⊕ List UInt8) :=
  if s.1 < s.2.length then do
    let now ← instantNow
    rejectIf (deadline ≤ now) .timeout
    attempt (sessionRead sh (s.2.drop s.1)) >>= patiently (drainMq vep 5) s (taken s)
  else pure (.inr s.2)

def writeTurn (sh : Handle) (pause : Vcl Unit) (buf : List UInt8) (pos : ℕ) : Vcl (ℕ ⊕ Unit) :=
  if pos < buf.length then
    attempt (sessionWrite sh (buf.drop pos)) >>= patiently pause pos (fun n => pure (.inl (pos + n)))
  else pure (.inr ())

def pauseSync (vep : Handle) (deadline : Instant) : Vcl Unit := do
  let now ← instantNow
  rejectIf (deadline ≤ now) .timeout
  drainMq vep 5

theorem writeAll_turns (st : VclStream) (buf : List UInt8) : st.writeAll buf =
    Fallible.loop (writeTurn st.handle (st.reactor.waitWritable st.handle (secs 300)) buf) 0 := by
  rw [VclStream.writeAll]
  congr 1
  funext pos
  refine if_congr Iff.rfl ?_ rfl
  refine congrArg (attempt _ >>= ·) ?_
  funext x
  cases x <;> rfl

theorem writeLoop_turns (sh vep : Handle) (deadline : Instant) (buf : List UInt8) :
    writeLoop sh vep deadline buf =
      Fallible.loop (writeTurn sh (pauseSync vep deadline) buf) 0 := by
  rw [writeLoop]
  congr 1
  funext pos
  refine if_congr Iff.rfl ?_ rfl
  refine congrArg (attempt _ >>= ·) ?_
  funext x
  cases x with
  | ok n => rfl
  | error e =>
    simp only [patiently,pauseSync,Fallible.bind_assoc]

theorem readLoop_turns (sh vep : Handle) (deadline : Instant) (buf : List UInt8) :
    readLoop sh vep deadline buf = Fallible.loop (readTurnSync sh vep deadline) (0,buf) := by
  rw [readLoop]
  congr 1
  funext s
  refine if_congr Iff.rfl ?_ rfl
  refine congrArg (instantNow >>= ·) ?_
  funext now
  refine congrArg (rejectIf _ _ >>= ·) ?_
  funext _
  refine congrArg (attempt _ >>= ·) ?_
  funext x
  cases x <;> rfl

def VclStream.readOnce (st : VclStream) (s : ℕ × List UInt8) : Vcl (Unit ⊕ (ℕ × List UInt8)) :=
  attempt (sessionRead st.handle (s.2.drop s.1)) >>=
    patiently (st.reactor.waitReadable st.handle (secs 300)) ()
      (fun x => if x.1 = 0 then err .closed else pure (.inr x))

def advanced (s x : ℕ × List UInt8) : ℕ × List UInt8 := (s.1 + x.1,s.2.take s.1 ++ x.2)

theorem readExact_nested (st : VclStream) (buf : List UInt8) : st.readExact buf =
    Fallible.loop (nested st.readOnce (fun s => s.1 < s.2.length) advanced Prod.snd) (0,buf) := by
  rw [VclStream.readExact]
  congr 1
  funext s
  refine if_congr Iff.rfl ?_ rfl
  refine congrArg (· >>= _) ?_
  rw [VclStream.read]
  congr 1
  funext _
  refine congrArg (attempt _ >>= ·) ?_
  funext x
  cases x <;> rfl

theorem readTurn_flattened (st : VclStream) (s : ℕ × List UInt8) :
    flattened st.readOnce (fun s => s.1 < s.2.length) advanced Prod.snd s = st.readTurn s := by
  refine if_congr Iff.rfl ?_ rfl
  rw [VclStream.readOnce,Fallible.bind_assoc]
  refine congrArg (attempt _ >>= ·) ?_
  funext x
  cases x with
  | ok x =>
    change (if x.1 = 0 then err .closed else _) >>= _ = taken s x
    rw [taken]
    split_ifs with h
    · rfl
    · rfl
  | error e =>
    rw [patiently,patiently]
    split_ifs with h
    · rw [Fallible.bind_assoc]
      rfl
    · rfl

theorem readExact_run {st : VclStream} {buf : List UInt8} {tr : List Ev} {r : Except Stop (List UInt8)} :
    (st.readExact buf).Run tr r ↔ (Fallible.loop st.readTurn (0,buf)).Run tr r := by
  rw [readExact_nested,run_flattened,← funext (readTurn_flattened st)]

end Turns

section Pauses

variable {sh vep : Handle} {deadline : Instant} {r : VclReactor} {timeout : Duration} {mask : UInt32}

theorem waits_hidden {c : Call} (h : Waits vep sh c) (x : Reply c) (sh' : Handle) :
    talks sh' ⟨c,x⟩ = false := by
  cases h <;> rfl

theorem wait_hidden {tr : List Ev} {x : Except Stop Unit} (h : (r.waitEvent sh mask timeout).Run tr x) :
    ∀ e ∈ tr, talks sh e = false := by
  intro e he
  exact waits_hidden (Prog.calls_run (waitEvent_calls mask timeout) h e he) e.reply sh

def resting : Contract Call Reply Unit where
  rely _ e := Waited e
  guar _ _ := True
  next _ _ := ()

theorem wait_ends {tr : List Ev} {x : Except Stop Unit} (h : (r.waitEvent sh mask timeout).Run tr x)
    (hw : ∀ e ∈ tr, Waited e) : x = .ok () ∨ x = .error (.err .timeout) := by
  have hwp : resting.wpe (r.waitEvent sh mask timeout) (fun _ _ => True)
      (fun e _ => e = .err .timeout) () := by
    rw [VclReactor.waitEvent,Contract.wpe_bind,Contract.wpe_call]
    intro n _
    refine ⟨trivial,?_⟩
    rw [Contract.wpe_bind]
    intro now _
    refine ⟨trivial,?_⟩
    refine waitLoop_rule (I := fun _ => True) ?_ ?_ ?_ ?_ trivial
    · rintro _ ⟨now,sel⟩ - hsel
      refine ⟨trivial,?_⟩
      cases sel <;> trivial
    · exact fun _ _ _ _ _ => ⟨trivial,trivial⟩
    · exact fun _ _ _ _ => ⟨trivial,trivial⟩
    · rintro _ ⟨now,again⟩ - hagain
      refine ⟨trivial,?_⟩
      cases again <;> trivial
  have hrel := resting.relied_of_mem (s := ()) (fun _ e he => hw e he)
  cases x with
  | ok _ => exact .inl rfl
  | error e => exact .inr (congrArg Except.error (resting.wpe_error hwp h hrel).2)

theorem drainMq_run : (drainMq vep 5).Run [⟨.epollWait vep 4 5,((0 : Int),[])⟩] (.ok ()) :=
  .call _ (.ret _)

theorem drainMq_ends {tr : List Ev} {x : Except Stop Unit} (h : (drainMq vep 5).Run tr x) :
    x = .ok () ∧ ∀ e ∈ tr, talks sh e = false := by
  obtain ⟨y,tr',rfl,hr⟩ := run_call_bind h
  cases hr
  exact ⟨rfl,List.forall_mem_singleton.mpr rfl⟩

theorem wait_run : (r.waitEvent sh mask timeout).Run [⟨.waitersEntry r.vep sh,(0 : ℕ)⟩,
    ⟨.instantNow,(0 : ℕ)⟩,⟨.select r.vep 0 (0 + timeout),((0 : ℕ),.notified)⟩] (.ok ()) :=
  .call _ (.call _ (.unroll 1 (.call _ (.ret _))))

theorem now_run (now : Instant) : instantNow.Run [⟨.instantNow,now⟩] (.ok now) := run_call _ _

theorem rejectIf_late {tr : List Ev} {α : Type} {f : Unit → Vcl α} {x : Except Stop α} {now : Instant}
    (h : now < deadline) :
    (rejectIf (deadline ≤ now) .timeout >>= f).Run tr x ↔ (f ()).Run tr x := by
  rw [rejectIf,if_neg (not_le.mpr h)]
  exact Iff.rfl

theorem rejectIf_expired : (rejectIf (deadline ≤ deadline) .timeout).Run [] (.error (.err .timeout)) := by
  rw [rejectIf,if_pos le_rfl]
  exact .ret _

theorem pauseSync_passes (h : 0 < deadline) : (pauseSync vep deadline).Run
    [⟨.instantNow,(0 : ℕ)⟩,⟨.epollWait vep 4 5,((0 : Int),[])⟩] (.ok ()) := by
  refine run_bind (now_run 0) ?_
  exact (rejectIf_late h).mpr drainMq_run

theorem pauseSync_expires : (pauseSync vep deadline).Run [⟨.instantNow,deadline⟩] (.error (.err .timeout)) := by
  exact run_bind (now_run deadline) (run_bind_error rejectIf_expired)

theorem pauseSync_ends {tr : List Ev} {x : Except Stop Unit} (h : (pauseSync vep deadline).Run tr x)
    (hw : ∀ e ∈ tr, Before deadline e) : x = .ok () ∧ ∀ e ∈ tr, talks sh e = false := by
  obtain ⟨now,tr',rfl,hr⟩ := run_call_bind h
  have hnow : now < deadline := hw _ (List.mem_cons_self ..)
  obtain ⟨hx,hidden⟩ := drainMq_ends ((rejectIf_late hnow).mp hr)
  exact ⟨hx,List.forall_mem_cons.mpr ⟨rfl,hidden⟩⟩

theorem waitWritable_covers (h : 0 < deadline) :
    (toSync sh).Covers (r.waitWritable sh timeout) (pauseSync vep deadline) := by
  intro tr x hr hw
  have hidden := wait_hidden hr
  rcases wait_ends hr hw with rfl | rfl
  · refine ⟨_,pauseSync_passes h,Likening.pairs_hidden (fun _ _ => trivial) hidden ?_⟩
    exact List.forall_mem_cons.mpr ⟨rfl,List.forall_mem_singleton.mpr rfl⟩
  · refine ⟨_,pauseSync_expires,Likening.pairs_hidden (fun _ _ => trivial) hidden ?_⟩
    exact List.forall_mem_singleton.mpr rfl

theorem wait_covered {pause : Vcl Unit}
    (h : ∀ tr x, pause.Run tr x → (∀ e ∈ tr, Before deadline e) →
      x = .ok () ∧ ∀ e ∈ tr, talks sh e = false) :
    (toAsync sh deadline).Covers pause (r.waitEvent sh mask timeout) := by
  intro tr x hr hw
  obtain ⟨rfl,hidden⟩ := h tr x hr hw
  refine ⟨_,wait_run,Likening.pairs_hidden ?_ hidden ?_⟩
  · exact List.forall_mem_cons.mpr ⟨rfl,List.forall_mem_cons.mpr ⟨rfl,List.forall_mem_singleton.mpr rfl⟩⟩
  · exact List.forall_mem_cons.mpr ⟨rfl,List.forall_mem_cons.mpr ⟨rfl,List.forall_mem_singleton.mpr rfl⟩⟩

end Pauses

section Loops

variable [Platform] {st : VclStream} {sh vep : Handle} {deadline : Instant} {L : Likening Call Reply}

theorem writeTurn_covers {pause pause' : Vcl Unit} {buf : List UInt8}
    (hio : ∀ e, Transfers sh e.op → L.left e → L.right e) (h : L.Covers pause pause') (pos : ℕ) :
    L.Covers (writeTurn sh pause buf pos) (writeTurn sh pause' buf pos) := by
  rw [writeTurn,writeTurn]
  split_ifs with hmore
  · refine Likening.covers_bind ?_ (patiently_covers ?_ h)
    · exact Likening.covers_self hio (calls_attempt (sessionWrite_calls _))
    · exact fun _ => Likening.covers_self hio (calls_pure _)
  · exact Likening.covers_self hio (calls_pure _)

omit [Platform] in
theorem transfers_waited {e : Ev} (h : Transfers sh e.op) : Waited e := by
  obtain ⟨op,x⟩ := e
  cases h <;> rfl

theorem writeAll_covers {buf : List UInt8} (h : 0 < deadline) :
    (toSync st.handle).Covers (st.writeAll buf) (writeLoop st.handle vep deadline buf) := by
  rw [writeAll_turns,writeLoop_turns]
  exact Likening.covers_loop (writeTurn_covers (fun _ _ _ => trivial) (waitWritable_covers h)) 0

theorem writeLoop_covers {buf : List UInt8} : (toAsync st.handle deadline).Covers
    (writeLoop st.handle vep deadline buf) (st.writeAll buf) := by
  rw [writeAll_turns,writeLoop_turns]
  refine Likening.covers_loop (writeTurn_covers (fun _ he _ => transfers_waited he) ?_) 0
  exact wait_covered (fun _ _ => pauseSync_ends)

theorem readTurnSync_run {s : ℕ × List UInt8} {tr : List Ev}
    {x : Except Stop ((ℕ × List UInt8) ⊕ List UInt8)} {now : Instant} (hs : s.1 < s.2.length)
    (hnow : now < deadline) : (readTurnSync sh vep deadline s).Run (⟨.instantNow,now⟩ :: tr) x ↔
      (attempt (sessionRead sh (s.2.drop s.1)) >>= patiently (drainMq vep 5) s (taken s)).Run tr x := by
  rw [readTurnSync,if_pos hs]
  constructor
  · intro h
    obtain ⟨_,_,⟨⟩,hr⟩ := run_call_bind h
    exact (rejectIf_late hnow).mp hr
  · intro h
    exact run_bind (now_run now) ((rejectIf_late hnow).mpr h)

theorem readTurnSync_expires {s : ℕ × List UInt8} (hs : s.1 < s.2.length) :
    (readTurnSync sh vep deadline s).Run [⟨.instantNow,deadline⟩] (.error (.err .timeout)) := by
  rw [readTurnSync,if_pos hs]
  exact run_bind (now_run deadline) (run_bind_error rejectIf_expired)

theorem readTurn_answered (h : 0 < deadline) (s : ℕ × List UInt8) (tr : List Ev)
    (x : Except Stop ((ℕ × List UInt8) ⊕ List UInt8)) (hr : (st.readTurn s).Run tr x)
    (hw : ∀ e ∈ tr, Waited e) :
    (toSync st.handle).Answers (readTurnSync st.handle vep deadline) s tr x := by
  have hpair (tr : List Ev) : (toSync st.handle).Pairs tr (⟨.instantNow,(0 : ℕ)⟩ :: tr) :=
    ⟨fun _ _ => trivial,rfl⟩
  by_cases hs : s.1 < s.2.length
  · rw [VclStream.readTurn,if_pos hs] at hr
    rcases run_bind_cases hr with ⟨tr₁,tr₂,y,rfl,hio,hy⟩ | ⟨e,he,rfl⟩
    · have hsame (hy' : (patiently (drainMq vep 5) s (taken s) y).Run tr₂ x) :
          (toSync st.handle).Answers (readTurnSync st.handle vep deadline) s (tr₁ ++ tr₂) x :=
        .turn ((readTurnSync_run hs h).mpr (run_bind hio hy')) (hpair _)
      cases y with
      | ok a => exact hsame hy
      | error e =>
        rw [patiently] at hy
        by_cases ht : e.transient
        · rw [if_pos ht] at hy
          have hdrained : (patiently (drainMq vep 5) s (taken s) (.error e)).Run
              [⟨.epollWait vep 4 5,((0 : Int),[])⟩] (.ok (.inl s)) := by
            rw [patiently,if_pos ht]
            exact Prog.run_ret drainMq_run rfl
          have hturn := (readTurnSync_run hs h).mpr (run_bind hio hdrained)
          obtain ⟨-,hw₂⟩ := List.forall_mem_append.mp hw
          obtain ⟨z,hz,rfl⟩ := run_map_iff.mp hy
          have hidden := wait_hidden hz
          have hdropped (tr' : List Ev) (htr' : ∀ e ∈ tr', talks st.handle e = false) :
              (toSync st.handle).Pairs (tr₁ ++ tr₂) (⟨.instantNow,(0 : ℕ)⟩ :: (tr₁ ++ tr')) := by
            have hsame : (toSync st.handle).Pairs tr₁ tr₁ := ⟨fun _ _ => trivial,rfl⟩
            have hquiet : (toSync st.handle).Pairs tr₂ tr' :=
              Likening.pairs_hidden (fun _ _ => trivial) hidden htr'
            exact ⟨fun _ _ => trivial,(Likening.pairs_append hsame hquiet).shown⟩
          rcases wait_ends hz hw₂ with rfl | rfl
          · exact .turn hturn (hdropped _ (List.forall_mem_singleton.mpr rfl))
          · refine .rest rfl (run_again hturn (run_last (readTurnSync_expires hs) rfl)) ?_
            have hp := hdropped [⟨.epollWait vep 4 5,((0 : Int),[])⟩,⟨.instantNow,deadline⟩]
              (List.forall_mem_cons.mpr ⟨rfl,List.forall_mem_singleton.mpr rfl⟩)
            simpa using hp
        · rw [if_neg ht] at hy
          refine hsame ?_
          rw [patiently,if_neg ht]
          exact hy
    · exact .turn ((readTurnSync_run hs h).mpr (run_bind_error he)) (hpair _)
  · rw [VclStream.readTurn,if_neg hs] at hr
    have hdone : (readTurnSync st.handle vep deadline s).Run tr x := by
      rw [readTurnSync,if_neg hs]
      exact hr
    exact .turn hdone ⟨fun _ _ => trivial,rfl⟩

theorem readExact_covers {buf : List UInt8} (h : 0 < deadline) :
    (toSync st.handle).Covers (st.readExact buf) (readLoop st.handle vep deadline buf) := by
  intro tr r hr hw
  rw [readLoop_turns]
  exact Likening.covers_rounds (readTurn_answered h) (0,buf) tr r (readExact_run.mp hr) hw

theorem readTurnSync_covers (s : ℕ × List UInt8) : (toAsync st.handle deadline).Covers
    (readTurnSync st.handle vep deadline s) (st.readTurn s) := by
  intro tr x hr hw
  by_cases hs : s.1 < s.2.length
  · have hnow : ∃ now tr', tr = ⟨.instantNow,now⟩ :: tr' := by
      rw [readTurnSync,if_pos hs] at hr
      obtain ⟨now,tr',rfl,-⟩ := run_call_bind hr
      exact ⟨now,tr',rfl⟩
    obtain ⟨now,tr,rfl⟩ := hnow
    obtain ⟨hearly,hw'⟩ := List.forall_mem_cons.mp hw
    have hio : ∀ e : Ev, Transfers st.handle e.op → (toAsync st.handle deadline).left e → Waited e :=
      fun _ he _ => transfers_waited he
    have htaken (a : ℕ × List UInt8) : (toAsync st.handle deadline).Covers (taken s a) (taken s a) :=
      Likening.covers_self hio (calls_ite (calls_err _) (calls_pure _))
    have hpause : (toAsync st.handle deadline).Covers (drainMq vep 5)
        (st.reactor.waitReadable st.handle (secs 300)) := wait_covered (fun _ _ hr _ => drainMq_ends hr)
    have hread := Likening.covers_self hio (calls_attempt (sessionRead_calls (s.2.drop s.1)))
    have hcovers := Likening.covers_bind hread (patiently_covers (s := s) htaken hpause)
    obtain ⟨tr',hr',hp⟩ := hcovers tr x ((readTurnSync_run hs hearly).mp hr) hw'
    refine ⟨tr',?_,hp.right,hp.shown⟩
    rw [VclStream.readTurn,if_pos hs]
    exact hr'
  · rw [readTurnSync,if_neg hs] at hr
    cases hr
    refine ⟨[],?_,by simp,rfl⟩
    rw [VclStream.readTurn,if_neg hs]
    exact .ret _

theorem readLoop_covers {buf : List UInt8} : (toAsync st.handle deadline).Covers
    (readLoop st.handle vep deadline buf) (st.readExact buf) := by
  intro tr r hr hw
  rw [readLoop_turns] at hr
  obtain ⟨tr',hr',hp⟩ := Likening.covers_loop readTurnSync_covers (0,buf) tr r hr hw
  exact ⟨tr',readExact_run.mpr hr',hp⟩

end Loops

section Exchanges

variable [Platform] {st : VclStream} {vep : Handle} {deadline : Instant} {peer : SocketAddr}
variable {query : List UInt8} {timeout : Duration} {tr : List Ev} {r : Except Stop (List UInt8)}

def speaking (sh vep : Handle) (deadline : Instant) (query : List UInt8) : Vcl (List UInt8) := do
  let framed ← ofExcept (frameTcpDnsQuery query)
  writeLoop sh vep deadline framed
  let lenbuf ← readLoop sh vep deadline [0,0]
  let len ← ofExcept (decodeTcpDnsLen (lenbuf.getD 0 0) (lenbuf.getD 1 0))
  readLoop sh vep deadline (List.replicate len 0)

theorem exchangeSync_eq (sh : Handle) : exchangeSync sh vep peer query timeout = (do
    startConnect sh peer
    let start ← instantNow
    speaking sh vep (start + timeout) query) := rfl

omit [Platform] in
theorem ofExcept_covers {α : Type} {L : Likening Call Reply} (x : Except VclError α) :
    L.Covers (ofExcept x) (ofExcept x) :=
  Likening.covers_self (P := fun _ => False) (by simp) (ofExcept_calls x)

theorem exchange_covers (h : 0 < deadline) :
    (toSync st.handle).Covers (exchange st query) (speaking st.handle vep deadline query) := by
  refine Likening.covers_bind (ofExcept_covers _) (fun framed => ?_)
  refine Likening.covers_bind (writeAll_covers h) (fun _ => ?_)
  refine Likening.covers_bind (readExact_covers h) (fun lenbuf => ?_)
  exact Likening.covers_bind (ofExcept_covers _) (fun len => readExact_covers h)

theorem speaking_covers : (toAsync st.handle deadline).Covers
    (speaking st.handle vep deadline query) (exchange st query) := by
  refine Likening.covers_bind (ofExcept_covers _) (fun framed => ?_)
  refine Likening.covers_bind writeLoop_covers (fun _ => ?_)
  refine Likening.covers_bind readLoop_covers (fun lenbuf => ?_)
  exact Likening.covers_bind (ofExcept_covers _) (fun len => readLoop_covers)

def Underway : Ev → Prop
  | ⟨.sessionConnect _ _,rc⟩ => 0 ≤ rc ∨ fromRc rc = .wouldBlock
  | _ => True

def firstReading : List Ev → Instant
  | [] => 0
  | ⟨.instantNow,now⟩ :: _ => now
  | _ :: tr => firstReading tr

def OnTime (timeout : Duration) (tr : List Ev) : Prop :=
  ∀ e ∈ tr, Before (firstReading tr + timeout) e

structure Congruent (st : VclStream) (vep : Handle) (peer : SocketAddr) (query : List UInt8)
    (timeout : Duration) : Prop where
  sync : ∀ tr r, (exchange st query).Run tr r → (∀ e ∈ tr, Waited e) →
    ∃ tr', (exchangeSync st.handle vep peer query timeout).Run tr' r ∧
      talk st.handle tr' = talk st.handle tr
  async : ∀ tr r, (exchangeSync st.handle vep peer query timeout).Run tr r →
    (∀ e ∈ tr, Underway e) → OnTime timeout tr →
      ∃ tr', (exchange st query).Run tr' r ∧ (∀ e ∈ tr', Waited e) ∧
        talk st.handle tr' = talk st.handle tr

def connected (rc : Int) : Except Stop Unit :=
  if rc < 0 ∧ fromRc rc ≠ .wouldBlock then .error (.err (fromRc rc)) else .ok ()

theorem startConnect_prog (sh : Handle) : (startConnect sh peer).prog =
    .call (.sessionConnect sh (endpointIntoBuf peer zeroed)) (fun rc => .ret (connected rc)) := by
  change Prog.call _ _ = Prog.call _ _
  congr 1
  funext (rc : Int)
  change (((checkRc rc).prog.bind _).bind _) = _
  by_cases h : rc < 0
  · rw [checkRc,rejectIf,if_pos h,connected]
    change (if fromRc rc = .wouldBlock then pure () else err (fromRc rc) : Vcl Unit).prog = _
    by_cases hb : fromRc rc = .wouldBlock
    · rw [if_pos hb,if_neg (fun hn => hn.2 hb)]
      rfl
    · rw [if_neg hb,if_pos ⟨h,hb⟩]
      rfl
  · rw [checkRc,rejectIf,if_neg h,connected,if_neg (fun hn => h hn.1)]
    rfl

theorem startConnect_run {sh : Handle} {x : Except Stop Unit} : (startConnect sh peer).Run tr x ↔
    ∃ rc, tr = [⟨.sessionConnect sh (endpointIntoBuf peer zeroed),rc⟩] ∧ x = connected rc := by
  rw [Fallible.Run,startConnect_prog]
  constructor
  · intro h
    cases h with
    | call rc h =>
      cases h
      exact ⟨rc,rfl,rfl⟩
  · rintro ⟨rc,rfl,rfl⟩
    exact .call rc (.ret _)

theorem connected_ok {rc : Int} (h : 0 ≤ rc ∨ fromRc rc = .wouldBlock) : connected rc = .ok () := by
  refine if_neg ?_
  rintro ⟨hneg,hno⟩
  rcases h with h | h
  · exact absurd hneg (not_lt.mpr h)
  · exact hno h

theorem exchangeSync_run {sh : Handle} (hd : ∀ e ∈ tr, Underway e)
    (h : (exchangeSync sh vep peer query timeout).Run tr r) :
    ∃ rc start tr', tr = ⟨.sessionConnect sh (endpointIntoBuf peer zeroed),rc⟩ ::
      ⟨.instantNow,start⟩ :: tr' ∧ (speaking sh vep (start + timeout) query).Run tr' r := by
  rw [exchangeSync_eq] at h
  rcases run_bind_cases h with ⟨tr₁,tr₂,_,rfl,hconnect,hrest⟩ | ⟨e,hconnect,-⟩
  · obtain ⟨rc,rfl,-⟩ := startConnect_run.mp hconnect
    obtain ⟨start,tr',rfl,hspeak⟩ := run_call_bind hrest
    exact ⟨rc,start,tr',rfl,hspeak⟩
  · obtain ⟨rc,rfl,hfailed⟩ := startConnect_run.mp hconnect
    rw [connected_ok (hd _ (List.mem_cons_self ..))] at hfailed
    cases hfailed

theorem exchanges_agree (h : 0 < timeout) : Congruent st vep peer query timeout := by
  constructor
  · intro tr r hr hw
    have hdeadline : 0 < 0 + timeout := (Nat.zero_add timeout).symm ▸ h
    obtain ⟨tr',hr',hp⟩ := exchange_covers hdeadline tr r hr hw
    have hconnect : (startConnect st.handle peer).Run
        [⟨.sessionConnect st.handle (endpointIntoBuf peer zeroed),(0 : Int)⟩] (.ok ()) :=
      startConnect_run.mpr ⟨_,rfl,(connected_ok (.inl le_rfl)).symm⟩
    exact ⟨_,run_bind hconnect (run_bind (now_run 0) hr'),hp.shown⟩
  · intro tr r hr hd hon
    obtain ⟨rc,start,tr,rfl,hspeak⟩ := exchangeSync_run hd hr
    have hbefore : ∀ e ∈ tr, Before (start + timeout) e :=
      fun e he => hon e (List.mem_cons_of_mem _ (List.mem_cons_of_mem _ he))
    obtain ⟨tr',hr',hp⟩ := speaking_covers tr r hspeak hbefore
    exact ⟨tr',hr',hp.right,hp.shown⟩

end Exchanges

section Halting

def halting : ℕ → (c : Call) → Reply c
  | 1, .sessionRead _ _ => ((-11 : Int),[])
  | 5, .sessionRead _ _ => ((2 : Int),[0,1])
  | _, .sessionRead _ _ => ((1 : Int),[9])
  | _, c => obliging c

theorem exchanges_agree_halting : 0 < secs 5 ∧ ∃ tr r, (@exchange host ⟨1,⟨2⟩⟩ [7]).Run tr r ∧
    r = .ok [9] ∧ (talk 1 tr).length = 4 ∧
      ∃ tr', (@exchangeSync host 1 3 (.v4 (.replicate 4 9) 53) [7] (secs 5)).Run tr' r ∧
        talk 1 tr' = talk 1 tr := by
  let _ := host
  have hpos : 0 < secs 5 := by decide
  obtain ⟨r,tr,hrun,hr,hlen,hw⟩ := Fallible.exec_sat (x := exchange ⟨1,⟨2⟩⟩ [7])
    (P := fun r tr => r = .ok [9] ∧ (talk 1 tr).length = 4 ∧ ∀ e ∈ tr, Waited e) halting 5 (by decide +kernel)
  have hagree : Congruent ⟨1,⟨2⟩⟩ 3 (.v4 (.replicate 4 9) 53) [7] (secs 5) := exchanges_agree hpos
  exact ⟨hpos,tr,r,hrun,hr,hlen,hagree.sync tr r hrun hw⟩

end Halting

end VclRs
