import VclRs.Streams.Script

namespace VclRs

open Interaction Fallible

variable [Platform] {st : VclStream} {buf : List UInt8} {cx pos : ℕ}

def writePolicy (buf : List UInt8) : Policy ℕ Unit where
  carries data := data.isEmpty
  serve pos rc _ :=
    if pos + rc.toNat ≤ buf.length then
      some (if pos + rc.toNat < buf.length then .inl (pos + rc.toNat) else .inr (.ok ()))
    else none
  submit pos := [buf.drop pos]

def writeAt (buf : List UInt8) (pos : ℕ) : Phase ℕ Unit :=
  if pos < buf.length then .ask pos else .done (.ok ())

theorem write_refused {rc : Int} (h : rc < 0) :
    (following (writePolicy buf)).next (.ask pos) ⟨.sessionWrite st.handle (buf.drop pos),rc⟩ =
      if (fromRc rc).transient then .wait pos else .done (.error (fromRc rc)) := by
  change (Phase.ask pos).next (writePolicy buf) (.io rc []) = _
  exact ask_refused rfl h

theorem write_served {rc : Int} (hpos : pos < buf.length) (h : ¬rc < 0)
    (hx : Lawful ⟨.sessionWrite st.handle (buf.drop pos),rc⟩) :
    (following (writePolicy buf)).next (.ask pos) ⟨.sessionWrite st.handle (buf.drop pos),rc⟩ =
      writeAt buf (pos + rc.toNat) := by
  have hle : pos + rc.toNat ≤ buf.length := by
    have hcount : rc.toNat ≤ (buf.drop pos).length := hx h
    rw [List.length_drop] at hcount
    omega
  have hserve : (writePolicy buf).serve pos rc [] =
      some (if pos + rc.toNat < buf.length then .inl (pos + rc.toNat) else .inr (.ok ())) :=
    if_pos hle
  change (Phase.ask pos).next (writePolicy buf) (.io rc []) = _
  rw [ask_served rfl h,hserve,writeAt]
  split_ifs <;> rfl

def VclStream.writeOn (st : VclStream) (pos : ℕ) : Except VclError ℕ → Vcl (ℕ ⊕ Unit)
  | .ok n => pure (.inl (pos + n))
  | .error e =>
    if e.transient then do
      st.reactor.waitWritable st.handle (secs 300)
      pure (.inl pos)
    else err e

def VclStream.writeStep (st : VclStream) (buf : List UInt8) (pos : ℕ) : Vcl (ℕ ⊕ Unit) :=
  if pos < buf.length then attempt (sessionWrite st.handle (buf.drop pos)) >>= st.writeOn pos
  else pure (.inr ())

def VclStream.writeFrom (st : VclStream) (buf : List UInt8) (pos : ℕ) : Vcl Unit :=
  Fallible.loop (st.writeStep buf) pos

theorem writeAll_eq : st.writeAll buf = st.writeFrom buf 0 := rfl

theorem writeAll_follows : (following (writePolicy buf)).wpe (st.writeAll buf)
    (fun _ q => q = .done (.ok ())) (fun s q => ∀ e, s = .err e → q = .done (.error e))
    (writeAt buf 0) := by
  rw [writeAll_eq]
  refine Contract.wpe_loop _ (fun pos q => q = writeAt buf pos) ?_ rfl
  rintro pos _ rfl
  rw [VclStream.writeStep,Contract.wpe_ite,writeAt]
  split_ifs with hpos
  · rw [Contract.wpe_bind]
    apply sessionWrite_wpe
    intro rc hx
    refine ⟨rfl,?_,?_⟩
    · intro hrc
      rw [write_refused hrc,VclStream.writeOn]
      simp only [Contract.wpe_ite,Contract.wpe_bind,wpe_err]
      split_ifs with ht
      · refine Contract.wpe_mono _ waitEvent_follows ?_ (fun _ _ h => h)
        rintro _ _ rfl
        exact (if_pos hpos).symm
      · rintro e ⟨⟩
        rfl
    · intro hrc
      rw [write_served hpos hrc hx]
      rfl
  · rfl

def WritePhase (buf : List UInt8) (pos : ℕ) : Poll (Except IoError ℕ) × Bool → Phase ℕ Unit → Prop
  | (.pending,stored), q => stored = true ∧ q = .wait pos
  | (.ready (.ok n),stored), q => stored = false ∧ q = writeAt buf (pos + n)
  | (.ready (.error e),stored), q => stored = false ∧ ∃ e', q = .done (.error e') ∧ e = vclToIo e'

theorem pollWrite_follows (hpos : pos < buf.length) (pending : Bool) :
    (following (writePolicy buf)).wpe (st.pollWrite pending cx (buf.drop pos)) (WritePhase buf pos)
      (fun _ _ => False) (if pending then .wait pos else .ask pos) := by
  rw [VclStream.pollWrite_eq]
  refine polling_follows ?_ ⟨rfl,rfl⟩ ?_ pending
  · apply sessionWrite_wpe
    intro rc hx
    refine ⟨rfl,?_,?_⟩
    · intro hrc
      rw [write_refused hrc]
      by_cases ht : (fromRc rc).transient
      · exact .inl ⟨_,rfl,ht,if_pos ht⟩
      · rw [if_neg ht]
        refine .inr ⟨?_,rfl,_,rfl,rfl⟩
        rintro e ⟨⟩
        exact ht
    · intro hrc
      rw [write_served hpos hrc hx]
      exact .inr ⟨by simp,rfl,rfl⟩
  · intro e he
    exact ⟨rfl,e,rfl,rfl⟩

inductive DrivenWrite (st : VclStream) (buf : List UInt8) :
    ℕ → Bool → List Ev → Except IoError Unit → Prop
  | complete {pos : ℕ} (hpos : ¬pos < buf.length) : DrivenWrite st buf pos false [] (.ok ())
  | again {pos cx : ℕ} {pending stored : Bool} {tr tr' : List Ev} {r : Except IoError Unit}
      (hpos : pos < buf.length)
      (h : (st.pollWrite pending cx (buf.drop pos)).Run tr (.ok (.pending,stored)))
      (hd : DrivenWrite st buf pos stored tr' r) : DrivenWrite st buf pos pending (tr ++ tr') r
  | accepted {pos cx n : ℕ} {pending stored : Bool} {tr tr' : List Ev} {r : Except IoError Unit}
      (hpos : pos < buf.length)
      (h : (st.pollWrite pending cx (buf.drop pos)).Run tr (.ok (.ready (.ok n),stored)))
      (hd : DrivenWrite st buf (pos + n) stored tr' r) :
      DrivenWrite st buf pos pending (tr ++ tr') r
  | failed {pos cx : ℕ} {pending stored : Bool} {tr : List Ev} {e : IoError}
      (hpos : pos < buf.length)
      (h : (st.pollWrite pending cx (buf.drop pos)).Run tr (.ok (.ready (.error e),stored))) :
      DrivenWrite st buf pos pending tr (.error e)

def toWrite : Except VclError Unit → Except IoError Unit
  | .ok _ => .ok ()
  | .error e => .error (vclToIo e)

theorem pollWrite_phase {pending : Bool} {tr : List Ev} {x : Poll (Except IoError ℕ) × Bool}
    (hpos : pos < buf.length) (h : (st.pollWrite pending cx (buf.drop pos)).Run tr (.ok x))
    (hl : ∀ e ∈ tr, Lawful e) :
    (following (writePolicy buf)).Kept (if pending then .wait pos else writeAt buf pos) tr ∧
      WritePhase buf pos x ((following (writePolicy buf)).after
        (if pending then .wait pos else writeAt buf pos) tr) := by
  have hat : writeAt buf pos = .ask pos := if_pos hpos
  rw [hat]
  exact Contract.wpe_ok _ (pollWrite_follows hpos pending) h
    (Contract.relied_of_mem _ (fun _ => hl))

theorem drivenWrite_phase {pending : Bool} {tr : List Ev} {r : Except IoError Unit}
    (h : DrivenWrite st buf pos pending tr r) (hl : ∀ e ∈ tr, Lawful e) :
    (following (writePolicy buf)).Kept (if pending then .wait pos else writeAt buf pos) tr ∧
      ∃ d, (following (writePolicy buf)).after (if pending then .wait pos else writeAt buf pos) tr =
        .done d ∧ r = toWrite d := by
  induction h with
  | complete hpos => exact ⟨trivial,.ok (),if_neg hpos,rfl⟩
  | again hpos h _ ih =>
    obtain ⟨hkept,rfl,hwait⟩ := pollWrite_phase hpos h (fun e he => hl e (List.mem_append_left _ he))
    rw [Contract.kept_append,Contract.after_append,hwait]
    obtain ⟨hkept',hdone⟩ := ih (fun e he => hl e (List.mem_append_right _ he))
    exact ⟨⟨hkept,hkept'⟩,hdone⟩
  | accepted hpos h _ ih =>
    obtain ⟨hkept,rfl,hat⟩ := pollWrite_phase hpos h (fun e he => hl e (List.mem_append_left _ he))
    rw [Contract.kept_append,Contract.after_append,hat]
    obtain ⟨hkept',hdone⟩ := ih (fun e he => hl e (List.mem_append_right _ he))
    exact ⟨⟨hkept,hkept'⟩,hdone⟩
  | failed hpos h =>
    obtain ⟨hkept,-,e',hdone,rfl⟩ := pollWrite_phase hpos h hl
    exact ⟨hkept,_,hdone,rfl⟩

def writeVerdict (rc : Int) : Except VclError ℕ :=
  if rc < 0 then .error (fromRc rc) else .ok rc.toNat

theorem realises_sessionWrite {sh : Handle} (rest : List UInt8) {rc : Int}
    (hx : Lawful ⟨.sessionWrite sh rest,rc⟩) :
    Realises (attempt (sessionWrite sh rest)) [.io rc []] (.ok (writeVerdict rc)) := by
  refine ⟨[⟨.sessionWrite sh rest,rc⟩],?_,by simpa using hx,rfl⟩
  refine @Prog.Run.call Call Reply _ (.sessionWrite sh rest) _ _ _ rc ?_
  change Prog.Run (((checkRc rc).prog.bind _).bind _) [] _
  rw [writeVerdict,checkRc,rejectIf]
  by_cases h : rc < 0
  · rw [if_pos h,if_pos h]
    exact .ret _
  · rw [if_neg h,if_neg h]
    exact .ret _

theorem realises_refusedWrite {sh : Handle} (rest : List UInt8) {rc : Int} (h : rc < 0) :
    Realises (attempt (sessionWrite sh rest)) [.io rc []] (.ok (.error (fromRc rc))) := by
  have hlaw : Lawful ⟨.sessionWrite sh rest,rc⟩ := fun hrc => absurd h hrc
  have hcall := realises_sessionWrite rest hlaw
  rw [writeVerdict,if_pos h] at hcall
  exact hcall

omit [Platform] in
theorem carried_nil {data : List UInt8} (h : (writePolicy buf).carries data) : data = [] :=
  List.isEmpty_iff.mp h

omit [Platform] in
theorem accepted_lawful {rc : Int} {data : List UInt8} {b : ℕ ⊕ Except VclError Unit}
    (hpos : pos < buf.length) (h : (writePolicy buf).serve pos rc data = some b) (sh : Handle) :
    Lawful ⟨.sessionWrite sh (buf.drop pos),rc⟩ ∧
      b = if pos + rc.toNat < buf.length then .inl (pos + rc.toNat) else .inr (.ok ()) := by
  by_cases hle : pos + rc.toNat ≤ buf.length
  · have hserve : (writePolicy buf).serve pos rc data =
        some (if pos + rc.toNat < buf.length then .inl (pos + rc.toNat) else .inr (.ok ())) :=
      if_pos hle
    rw [hserve] at h
    have hcount : rc.toNat ≤ (buf.drop pos).length := by
      rw [List.length_drop]
      omega
    exact ⟨fun _ => hcount,(Option.some.inj h).symm⟩
  · have hserve : (writePolicy buf).serve pos rc data = none := if_neg hle
    rw [hserve] at h
    cases h

theorem write_refusing {rc : Int} {items : List Item} {r : Except Stop (ℕ ⊕ Unit)}
    (hpos : pos < buf.length) (h : rc < 0)
    (hr : Realises (st.writeOn pos (.error (fromRc rc))) items r) :
    Realises (st.writeStep buf pos) (.io rc [] :: items) r := by
  rw [VclStream.writeStep,if_pos hpos]
  exact realises_bind (realises_refusedWrite _ h) hr

theorem write_accepting {rc : Int} (hpos : pos < buf.length) (h : ¬rc < 0)
    (hlaw : Lawful ⟨.sessionWrite st.handle (buf.drop pos),rc⟩) :
    Realises (st.writeStep buf pos) [.io rc []] (.ok (.inl (pos + rc.toNat))) := by
  have hcall := realises_sessionWrite (buf.drop pos) hlaw
  rw [writeVerdict,if_neg h] at hcall
  rw [VclStream.writeStep,if_pos hpos]
  exact realises_bind hcall (realises_pure _)

theorem write_complete (st : VclStream) (hpos : ¬pos < buf.length) :
    Realises (st.writeFrom buf pos) [] (.ok ()) := by
  have hstep : Realises (st.writeStep buf pos) [] (.ok (.inr ())) := by
    rw [VclStream.writeStep,if_neg hpos]
    exact realises_pure _
  exact realises_last hstep rfl

theorem writeFrom_realised (st : VclStream) {items : List Item} {d : Except VclError Unit}
    (h : Served (writePolicy buf) pos items d) (hpos : pos < buf.length) :
    ∃ res, Realises (st.writeFrom buf pos) items res ∧ res ≠ .error .dropped := by
  induction h with
  | @refused pos rc data hc h ht =>
    cases carried_nil hc
    have hon : Realises (st.writeOn pos (.error (fromRc rc))) [] (.error (.err (fromRc rc))) := by
      rw [VclStream.writeOn,if_neg ht]
      exact realises_err _
    exact ⟨_,realises_last (write_refusing hpos h hon) rfl,by simp⟩
  | @retried pos rc data items b hc h ht _ ih =>
    cases carried_nil hc
    obtain ⟨res,hres,hne⟩ := ih hpos
    have hon : Realises (st.writeOn pos (.error (fromRc rc))) [.wait (.ok ())] (.ok (.inl pos)) := by
      rw [VclStream.writeOn,if_pos ht]
      exact realises_bind (realises_waitEvent .notified rfl rfl) (realises_pure _)
    have hrun := realises_again (write_refusing hpos h hon) hres
    exact ⟨res,hrun,hne⟩
  | @failed pos rc data e hc h ht he =>
    cases carried_nil hc
    have hon : Realises (st.writeOn pos (.error (fromRc rc))) [.wait (.error e)]
        (.error (.err e)) := by
      rw [VclStream.writeOn,if_pos ht]
      exact realises_bind_error (realises_waitFailed he)
    exact ⟨_,realises_last (write_refusing hpos h hon) rfl,by simp⟩
  | @finished pos rc data b hc h hb =>
    cases carried_nil hc
    obtain ⟨hlaw,hend⟩ := accepted_lawful hpos hb st.handle
    by_cases hmore : pos + rc.toNat < buf.length
    · rw [if_pos hmore] at hend
      cases hend
    · have hrun := realises_again (write_accepting hpos h hlaw) (write_complete st hmore)
      exact ⟨_,hrun,by simp⟩
  | @moved pos pos' rc data items b hc h hr _ ih =>
    cases carried_nil hc
    obtain ⟨hlaw,hend⟩ := accepted_lawful hpos hr st.handle
    by_cases hmore : pos + rc.toNat < buf.length
    · rw [if_pos hmore] at hend
      cases hend
      obtain ⟨res,hres,hne⟩ := ih hmore
      have hrun := realises_again (write_accepting hpos h hlaw) hres
      exact ⟨res,hrun,hne⟩
    · rw [if_neg hmore] at hend
      cases hend

theorem drivenWrite_woken {tr : List Ev} {r : Except IoError Unit} (hpos : pos < buf.length)
    (h : DrivenWrite st buf pos false tr r) (hl : ∀ e ∈ tr, Lawful e) :
    ∃ tr', DrivenWrite st buf pos true tr' r ∧ (∀ e ∈ tr', Lawful e) ∧
      script tr' = .wait (.ok ()) :: script tr := by
  cases h with
  | complete hdone => exact absurd hpos hdone
  | again _ h hd =>
    rw [VclStream.pollWrite_eq] at h
    have hwoken := polling_woken h
    rw [← VclStream.pollWrite_eq] at hwoken
    exact ⟨_,.again hpos hwoken hd,woken_lawful hl,rfl⟩
  | accepted _ h hd =>
    rw [VclStream.pollWrite_eq] at h
    have hwoken := polling_woken h
    rw [← VclStream.pollWrite_eq] at hwoken
    exact ⟨_,.accepted hpos hwoken hd,woken_lawful hl,rfl⟩
  | failed _ h =>
    rw [VclStream.pollWrite_eq] at h
    have hwoken := polling_woken h
    rw [← VclStream.pollWrite_eq] at hwoken
    exact ⟨_,.failed hpos hwoken,woken_lawful hl,rfl⟩

theorem pollWrite_parked (st : VclStream) (rest : List UInt8) {rc : Int} (h : rc < 0)
    (ht : (fromRc rc).transient) :
    Realises (st.pollWrite false 0 rest) [.io rc []] (.ok (.pending,true)) := by
  rw [VclStream.pollWrite_eq]
  exact realises_parked (realises_refusedWrite _ h) ht

theorem pollWrite_accepting {rc : Int} (h : ¬rc < 0)
    (hlaw : Lawful ⟨.sessionWrite st.handle (buf.drop pos),rc⟩) :
    Realises (st.pollWrite false 0 (buf.drop pos)) [.io rc []]
      (.ok (.ready (.ok rc.toNat),false)) := by
  have hcall := realises_sessionWrite (buf.drop pos) hlaw
  rw [writeVerdict,if_neg h] at hcall
  rw [VclStream.pollWrite_eq]
  refine realises_settled hcall ?_
  rintro e ⟨⟩

theorem drivenWrite_realised (st : VclStream) {items : List Item} {d : Except VclError Unit}
    (h : Served (writePolicy buf) pos items d) (hpos : pos < buf.length) :
    ∃ tr r, DrivenWrite st buf pos false tr r ∧ (∀ e ∈ tr, Lawful e) ∧ script tr = items := by
  induction h with
  | @refused pos rc data hc h ht =>
    cases carried_nil hc
    obtain ⟨tr,hrun,hl,hs⟩ : Realises (st.pollWrite false 0 (buf.drop pos)) [.io rc []]
        (.ok (.ready (.error (vclToIo (fromRc rc))),false)) := by
      rw [VclStream.pollWrite_eq]
      refine realises_settled (realises_refusedWrite _ h) ?_
      rintro e ⟨⟩
      exact ht
    exact ⟨tr,_,.failed hpos hrun,hl,hs⟩
  | @retried pos rc data items b hc h ht _ ih =>
    cases carried_nil hc
    obtain ⟨tr',r,hd,hl',rfl⟩ := ih hpos
    obtain ⟨tr'',hd',hl'',hs''⟩ := drivenWrite_woken hpos hd hl'
    obtain ⟨tr,hrun,hl,hs⟩ := pollWrite_parked st (buf.drop pos) h ht
    refine ⟨tr ++ tr'',r,.again hpos hrun hd',lawful_append hl hl'',?_⟩
    rw [script_append,hs,hs'']
    rfl
  | @failed pos rc data e hc h ht he =>
    cases carried_nil hc
    obtain ⟨tr,hrun,hl,hs⟩ := pollWrite_parked st (buf.drop pos) h ht
    obtain ⟨tr',hrun',hl',hs'⟩ : Realises (st.pollWrite true 0 (buf.drop pos)) [.wait (.error e)]
        (.ok (.ready (.error (vclToIo e)),false)) := by
      rw [VclStream.pollWrite_eq]
      exact realises_unparked he
    refine ⟨tr ++ tr',_,.again hpos hrun (.failed hpos hrun'),lawful_append hl hl',?_⟩
    rw [script_append,hs,hs']
    rfl
  | @finished pos rc data b hc h hb =>
    cases carried_nil hc
    obtain ⟨hlaw,hend⟩ := accepted_lawful hpos hb st.handle
    by_cases hmore : pos + rc.toNat < buf.length
    · rw [if_pos hmore] at hend
      cases hend
    · obtain ⟨tr,hrun,hl,hs⟩ := pollWrite_accepting h hlaw
      refine ⟨tr ++ [],_,.accepted hpos hrun (.complete hmore),?_,?_⟩
      · rw [List.append_nil]
        exact hl
      · rw [List.append_nil]
        exact hs
  | @moved pos pos' rc data items b hc h hr _ ih =>
    cases carried_nil hc
    obtain ⟨hlaw,hend⟩ := accepted_lawful hpos hr st.handle
    by_cases hmore : pos + rc.toNat < buf.length
    · rw [if_pos hmore] at hend
      cases hend
      obtain ⟨tr',r,hd,hl',rfl⟩ := ih hmore
      obtain ⟨tr,hrun,hl,hs⟩ := pollWrite_accepting h hlaw
      refine ⟨tr ++ tr',r,.accepted hpos hrun hd,lawful_append hl hl',?_⟩
      rw [script_append,hs]
      rfl
    · rw [if_neg hmore] at hend
      cases hend

inductive WriteEnds : Except Stop Unit → Except VclError Unit → Prop
  | ok : WriteEnds (.ok ()) (.ok ())
  | error (e : VclError) : WriteEnds (.error (.err e)) (.error e)

theorem writeAll_sound {tr : List Ev} {res : Except Stop Unit} (h : (st.writeAll buf).Run tr res)
    (hres : res ≠ .error .dropped) (hl : ∀ e ∈ tr, Lawful e) :
    (following (writePolicy buf)).Kept (writeAt buf 0) tr ∧
      ∃ d, (following (writePolicy buf)).after (writeAt buf 0) tr = .done d ∧ WriteEnds res d := by
  have hrel : (following (writePolicy buf)).Relied (writeAt buf 0) tr :=
    Contract.relied_of_mem _ (fun _ => hl)
  match res with
  | .ok () =>
    obtain ⟨hkept,hdone⟩ := Contract.wpe_ok _ writeAll_follows h hrel
    exact ⟨hkept,_,hdone,.ok⟩
  | .error (.err e) =>
    obtain ⟨hkept,hdone⟩ := Contract.wpe_error _ writeAll_follows h hrel
    exact ⟨hkept,_,hdone e rfl,.error e⟩
  | .error .dropped => exact absurd rfl hres

theorem write_policy : Follows (writePolicy buf) (writeAt buf 0)
    (fun tr res => (st.writeAll buf).Run tr res ∧ res ≠ .error .dropped) WriteEnds := by
  constructor
  · rintro tr res ⟨h,hres⟩ hl
    exact writeAll_sound h hres hl
  · intro items d h
    have hrun : ∃ res, Realises (st.writeFrom buf 0) items res ∧ res ≠ .error .dropped := by
      by_cases hpos : 0 < buf.length
      · rw [writeAt,if_pos hpos] at h
        exact writeFrom_realised st (served_of_run _ h) hpos
      · rw [writeAt,if_neg hpos] at h
        obtain ⟨rfl,-⟩ := done_run _ h
        exact ⟨_,write_complete st hpos,by simp⟩
    obtain ⟨res,⟨tr,hrun,hl,hs⟩,hres⟩ := hrun
    exact ⟨tr,res,⟨hrun,hres⟩,hl,hs⟩

theorem drivenWrite_policy : Follows (writePolicy buf) (writeAt buf 0)
    (DrivenWrite st buf 0 false) (fun r d => r = toWrite d) := by
  constructor
  · intro tr r h hl
    exact drivenWrite_phase h hl
  · intro items d h
    by_cases hpos : 0 < buf.length
    · rw [writeAt,if_pos hpos] at h
      exact drivenWrite_realised st (served_of_run _ h) hpos
    · rw [writeAt,if_neg hpos] at h
      obtain ⟨rfl,-⟩ := done_run _ h
      exact ⟨[],.ok (),.complete hpos,by simp,rfl⟩

end VclRs
