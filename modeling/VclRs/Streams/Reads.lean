import VclRs.Streams.Script

namespace VclRs

open Interaction Fallible

variable [Platform] {st : VclStream} {buf unfilled : List UInt8} {cx : ℕ}

def readPolicy (size : ℕ) : Policy Unit (List UInt8) where
  carries _ := true
  serve _ rc data :=
    if data.length = rc.toNat ∧ data.length ≤ size then
      some (.inr (if rc.toNat = 0 then .error .closed else .ok data))
    else none
  submit _ := []

theorem read_refused {size : ℕ} {x : Int × List UInt8} (h : x.1 < 0) :
    (following (readPolicy size)).next (.ask ()) ⟨.sessionRead st.handle size,x⟩ =
      if (fromRc x.1).transient then .wait () else .done (.error (fromRc x.1)) := by
  change (Phase.ask ()).next (readPolicy size) (.io x.1 x.2) = _
  exact ask_refused rfl h

theorem read_served {size : ℕ} {x : Int × List UInt8} (h : ¬x.1 < 0)
    (hx : Lawful ⟨.sessionRead st.handle size,x⟩) :
    (following (readPolicy size)).next (.ask ()) ⟨.sessionRead st.handle size,x⟩ =
      .done (if x.1.toNat = 0 then .error .closed else .ok x.2) := by
  have hserve : (readPolicy size).serve () x.1 x.2 =
      some (.inr (if x.1.toNat = 0 then .error .closed else .ok x.2)) := if_pos (hx h)
  change (Phase.ask ()).next (readPolicy size) (.io x.1 x.2) = _
  rw [ask_served rfl h,hserve,Phase.ofServed]

inductive ReadEnds : Except Stop (ℕ × List UInt8) → Except VclError (List UInt8) → Prop
  | ok {n : ℕ} {filled : List UInt8} (hn : n ≠ 0) (hlen : (filled.take n).length = n) :
      ReadEnds (.ok (n,filled)) (.ok (filled.take n))
  | error (e : VclError) : ReadEnds (.error (.err e)) (.error e)

theorem read_follows : (following (readPolicy buf.length)).wpe (st.read buf)
    (fun x q => ∃ d, q = .done d ∧ ReadEnds (.ok x) d)
    (fun s q => ∀ e, s = .err e → q = .done (.error e)) (.ask ()) := by
  refine Contract.wpe_loop _ (fun _ q => q = .ask ()) ?_ rfl
  rintro _ _ rfl
  rw [Contract.wpe_bind]
  apply sessionRead_wpe
  intro x hx
  refine ⟨rfl,?_,?_⟩
  · intro hrc
    rw [read_refused hrc]
    simp only [Contract.wpe_ite,Contract.wpe_bind,wpe_err]
    split_ifs with ht
    · exact Contract.wpe_mono _ waitEvent_follows (fun _ _ h => h) (fun _ _ h => h)
    · rintro e ⟨⟩
      rfl
  · intro hrc
    obtain ⟨hlen,hle⟩ : x.2.length = x.1.toNat ∧ x.2.length ≤ buf.length := hx hrc
    rw [read_served hrc hx]
    simp only [Contract.wpe_ite,wpe_err]
    split_ifs with hz
    · rintro e ⟨⟩
      rfl
    · have htake : (patch buf x.2).take x.1.toNat = x.2 := by
        rw [← hlen]
        exact take_patch hle
      refine ⟨_,rfl,?_⟩
      have hends : ReadEnds (.ok (x.1.toNat,patch buf x.2))
          (.ok ((patch buf x.2).take x.1.toNat)) := .ok hz (by rw [htake,hlen])
      rw [htake] at hends
      exact hends

def toRead : Except VclError (List UInt8) → Except IoError (List UInt8)
  | .ok bytes => .ok bytes
  | .error e => if e = .closed then .ok [] else .error (vclToIo e)

def ReadPhase : Poll (Except IoError (List UInt8)) × Bool → Phase Unit (List UInt8) → Prop
  | (.pending,stored), q => stored = true ∧ q = .wait ()
  | (.ready r,stored), q => stored = false ∧ ∃ d, q = .done d ∧ r = toRead d

theorem pollRead_follows (pending : Bool) :
    (following (readPolicy unfilled.length)).wpe (st.pollRead pending cx unfilled) ReadPhase
      (fun _ _ => False) (if pending then .wait () else .ask ()) := by
  rw [VclStream.pollRead_eq]
  refine polling_follows ?_ ⟨rfl,rfl⟩ ?_ pending
  · apply sessionRead_wpe
    intro x hx
    refine ⟨rfl,?_,?_⟩
    · intro hrc
      rw [read_refused hrc]
      by_cases ht : (fromRc x.1).transient
      · exact .inl ⟨_,rfl,ht,if_pos ht⟩
      · rw [if_neg ht]
        refine .inr ⟨?_,rfl,_,rfl,rfl⟩
        rintro e ⟨⟩
        exact ht
    · intro hrc
      obtain ⟨hlen,hle⟩ : x.2.length = x.1.toNat ∧ x.2.length ≤ unfilled.length := hx hrc
      have htake : (patch unfilled x.2).take x.1.toNat = x.2 := by
        rw [← hlen]
        exact take_patch hle
      rw [read_served hrc hx]
      refine .inr ⟨by simp,rfl,_,rfl,?_⟩
      change Except.ok ((patch unfilled x.2).take x.1.toNat) = _
      rw [htake]
      split_ifs with hz
      · rw [hz] at hlen
        rw [List.length_eq_zero_iff.mp hlen]
        rfl
      · rfl
  · intro e he
    refine ⟨rfl,_,rfl,?_⟩
    cases he <;> rfl

inductive DrivenRead (st : VclStream) (unfilled : List UInt8) :
    Bool → List Ev → Except IoError (List UInt8) → Prop
  | ready {pending stored : Bool} {cx : ℕ} {tr : List Ev} {r : Except IoError (List UInt8)}
      (h : (st.pollRead pending cx unfilled).Run tr (.ok (.ready r,stored))) :
      DrivenRead st unfilled pending tr r
  | again {pending stored : Bool} {cx : ℕ} {tr tr' : List Ev} {r : Except IoError (List UInt8)}
      (h : (st.pollRead pending cx unfilled).Run tr (.ok (.pending,stored)))
      (hd : DrivenRead st unfilled stored tr' r) : DrivenRead st unfilled pending (tr ++ tr') r

theorem pollRead_phase {pending : Bool} {tr : List Ev}
    {x : Poll (Except IoError (List UInt8)) × Bool}
    (h : (st.pollRead pending cx unfilled).Run tr (.ok x)) (hl : ∀ e ∈ tr, Lawful e) :
    (following (readPolicy unfilled.length)).Kept (if pending then .wait () else .ask ()) tr ∧
      ReadPhase x ((following (readPolicy unfilled.length)).after
        (if pending then .wait () else .ask ()) tr) :=
  Contract.wpe_ok _ (pollRead_follows pending) h (Contract.relied_of_mem _ (fun _ => hl))

theorem driven_phase {pending : Bool} {tr : List Ev} {r : Except IoError (List UInt8)}
    (h : DrivenRead st unfilled pending tr r) (hl : ∀ e ∈ tr, Lawful e) :
    (following (readPolicy unfilled.length)).Kept (if pending then .wait () else .ask ()) tr ∧
      ∃ d, (following (readPolicy unfilled.length)).after (if pending then .wait () else .ask ()) tr =
        .done d ∧ r = toRead d := by
  induction h with
  | ready h =>
    obtain ⟨hkept,-,hdone⟩ := pollRead_phase h hl
    exact ⟨hkept,hdone⟩
  | again h _ ih =>
    obtain ⟨hkept,rfl,hwait⟩ := pollRead_phase h (fun e he => hl e (List.mem_append_left _ he))
    rw [Contract.kept_append,Contract.after_append,hwait]
    obtain ⟨hkept',hdone⟩ := ih (fun e he => hl e (List.mem_append_right _ he))
    exact ⟨⟨hkept,hkept'⟩,hdone⟩

def readVerdict (buf : List UInt8) (x : Int × List UInt8) : Except VclError (ℕ × List UInt8) :=
  if x.1 < 0 then .error (fromRc x.1) else .ok (x.1.toNat,patch buf x.2)

theorem realises_sessionRead {sh : Handle} (buf : List UInt8) {x : Int × List UInt8}
    (hx : Lawful ⟨.sessionRead sh buf.length,x⟩) :
    Realises (attempt (sessionRead sh buf)) [.io x.1 x.2] (.ok (readVerdict buf x)) := by
  refine ⟨[⟨.sessionRead sh buf.length,x⟩],?_,by simpa using hx,rfl⟩
  refine @Prog.Run.call Call Reply _ (.sessionRead sh buf.length) _ _ _ x ?_
  change Prog.Run (((checkRc x.1).prog.bind _).bind _) [] _
  rw [readVerdict,checkRc,rejectIf]
  by_cases h : x.1 < 0
  · rw [if_pos h,if_pos h]
    exact .ret _
  · rw [if_neg h,if_neg h]
    exact .ret _

omit [Platform] in
theorem served_lawful {rc : Int} {data : List UInt8} {size : ℕ} {b : Unit ⊕ Except VclError (List UInt8)}
    (h : (readPolicy size).serve () rc data = some b) (sh : Handle) :
    Lawful ⟨.sessionRead sh size,(rc,data)⟩ ∧
      b = .inr (if rc.toNat = 0 then .error .closed else .ok data) := by
  by_cases hc : data.length = rc.toNat ∧ data.length ≤ size
  · have hserve : (readPolicy size).serve () rc data =
        some (.inr (if rc.toNat = 0 then .error .closed else .ok data)) := if_pos hc
    rw [hserve] at h
    cases h
    exact ⟨fun _ => hc,rfl⟩
  · have hserve : (readPolicy size).serve () rc data = none := if_neg hc
    rw [hserve] at h
    cases h

omit [Platform] in
theorem refused_lawful {rc : Int} (data : List UInt8) {size : ℕ} (h : rc < 0) (sh : Handle) :
    Lawful ⟨.sessionRead sh size,(rc,data)⟩ := fun hrc => absurd h hrc

def VclStream.readOn (st : VclStream) :
    Except VclError (ℕ × List UInt8) → Vcl (Unit ⊕ (ℕ × List UInt8))
  | .ok x => if x.1 = 0 then err .closed else pure (.inr x)
  | .error e =>
    if e.transient then do
      st.reactor.waitReadable st.handle (secs 300)
      pure (.inl ())
    else err e

theorem read_refusing {rc : Int} {data : List UInt8} {items : List Item}
    {r : Except Stop (Unit ⊕ (ℕ × List UInt8))} (h : rc < 0)
    (hr : Realises (st.readOn (.error (fromRc rc))) items r) :
    Realises (attempt (sessionRead st.handle buf) >>= st.readOn) (.io rc data :: items) r := by
  have hcall := realises_sessionRead buf (refused_lawful data h st.handle)
  rw [readVerdict,if_pos h] at hcall
  exact realises_bind hcall hr

theorem read_realised (st : VclStream) {r : Unit} {items : List Item} {d : Except VclError (List UInt8)}
    (h : Served (readPolicy buf.length) r items d) :
    ∃ res, Realises (st.read buf) items res ∧ res ≠ .error .dropped := by
  induction h with
  | @refused _ rc data _ h ht =>
    have hon : Realises (st.readOn (.error (fromRc rc))) [] (.error (.err (fromRc rc))) := by
      rw [VclStream.readOn,if_neg ht]
      exact realises_err _
    exact ⟨_,realises_last (read_refusing h hon) rfl,by simp⟩
  | @retried _ rc data items b _ h ht _ ih =>
    obtain ⟨res,hres,hne⟩ := ih
    have hon : Realises (st.readOn (.error (fromRc rc))) [.wait (.ok ())] (.ok (.inl ())) := by
      rw [VclStream.readOn,if_pos ht]
      exact realises_bind (realises_waitEvent .notified rfl rfl) (realises_pure _)
    have hfirst : Realises (attempt (sessionRead st.handle buf) >>= st.readOn)
        [.io rc data,.wait (.ok ())] (.ok (.inl ())) := read_refusing h hon
    have hrun := realises_again (i := ()) hfirst hres
    exact ⟨res,hrun,hne⟩
  | @failed _ rc data e _ h ht he =>
    have hon : Realises (st.readOn (.error (fromRc rc))) [.wait (.error e)] (.error (.err e)) := by
      rw [VclStream.readOn,if_pos ht]
      exact realises_bind_error (realises_waitFailed he)
    exact ⟨_,realises_last (read_refusing h hon) rfl,by simp⟩
  | @finished _ rc data b _ h hb =>
    obtain ⟨hlaw,-⟩ := served_lawful hb st.handle
    have hcall := realises_sessionRead buf hlaw
    rw [readVerdict,if_neg h] at hcall
    by_cases hz : rc.toNat = 0
    · have hon : Realises (st.readOn (.ok (rc.toNat,patch buf data))) [] (.error (.err .closed)) := by
        rw [VclStream.readOn,if_pos hz]
        exact realises_err _
      exact ⟨_,realises_last (realises_bind hcall hon) rfl,by simp⟩
    · have hon : Realises (st.readOn (.ok (rc.toNat,patch buf data))) []
          (.ok (.inr (rc.toNat,patch buf data))) := by
        rw [VclStream.readOn,if_neg hz]
        exact realises_pure _
      exact ⟨_,realises_last (realises_bind hcall hon) rfl,by simp⟩
  | moved _ h hr _ _ =>
    obtain ⟨-,hb⟩ := served_lawful hr st.handle
    cases hb

theorem driven_woken {tr : List Ev} {r : Except IoError (List UInt8)}
    (h : DrivenRead st unfilled false tr r) (hl : ∀ e ∈ tr, Lawful e) :
    ∃ tr', DrivenRead st unfilled true tr' r ∧ (∀ e ∈ tr', Lawful e) ∧
      script tr' = .wait (.ok ()) :: script tr := by
  cases h with
  | ready h =>
    rw [VclStream.pollRead_eq] at h
    have hwoken := polling_woken h
    rw [← VclStream.pollRead_eq] at hwoken
    exact ⟨_,.ready hwoken,woken_lawful hl,rfl⟩
  | again h hd =>
    rw [VclStream.pollRead_eq] at h
    have hwoken := polling_woken h
    rw [← VclStream.pollRead_eq] at hwoken
    exact ⟨_,.again hwoken hd,woken_lawful hl,rfl⟩

theorem pollRead_parked (st : VclStream) (unfilled : List UInt8) {rc : Int} (data : List UInt8)
    (h : rc < 0) (ht : (fromRc rc).transient) :
    Realises (st.pollRead false 0 unfilled) [.io rc data] (.ok (.pending,true)) := by
  have hcall := realises_sessionRead unfilled (refused_lawful data h st.handle)
  rw [readVerdict,if_pos h] at hcall
  rw [VclStream.pollRead_eq]
  exact realises_parked hcall ht

theorem driven_realised {r : Unit} {items : List Item} {d : Except VclError (List UInt8)}
    (h : Served (readPolicy unfilled.length) r items d) :
    ∃ tr r, DrivenRead st unfilled false tr r ∧ (∀ e ∈ tr, Lawful e) ∧ script tr = items := by
  induction h with
  | @refused _ rc data _ h ht =>
    have hcall := realises_sessionRead unfilled (refused_lawful data h st.handle)
    rw [readVerdict,if_pos h] at hcall
    obtain ⟨tr,hrun,hl,hs⟩ : Realises (st.pollRead false 0 unfilled) [.io rc data] _ := by
      rw [VclStream.pollRead_eq]
      refine realises_settled hcall ?_
      rintro e ⟨⟩
      exact ht
    exact ⟨tr,_,.ready hrun,hl,hs⟩
  | @retried _ rc data items b _ h ht _ ih =>
    obtain ⟨tr',r,hd,hl',rfl⟩ := ih
    obtain ⟨tr'',hd',hl'',hs''⟩ := driven_woken hd hl'
    obtain ⟨tr,hrun,hl,hs⟩ := pollRead_parked st unfilled data h ht
    refine ⟨tr ++ tr'',r,.again hrun hd',lawful_append hl hl'',?_⟩
    rw [script_append,hs,hs'']
    rfl
  | @failed _ rc data e _ h ht he =>
    obtain ⟨tr,hrun,hl,hs⟩ := pollRead_parked st unfilled data h ht
    obtain ⟨tr',hrun',hl',hs'⟩ : Realises (st.pollRead true 0 unfilled) [.wait (.error e)] _ := by
      rw [VclStream.pollRead_eq]
      exact realises_unparked he
    refine ⟨tr ++ tr',_,.again hrun (.ready hrun'),lawful_append hl hl',?_⟩
    rw [script_append,hs,hs']
    rfl
  | @finished _ rc data b _ h hb =>
    obtain ⟨hlaw,-⟩ := served_lawful hb st.handle
    have hcall := realises_sessionRead unfilled hlaw
    rw [readVerdict,if_neg h] at hcall
    obtain ⟨tr,hrun,hl,hs⟩ : Realises (st.pollRead false 0 unfilled) [.io rc data] _ := by
      rw [VclStream.pollRead_eq]
      refine realises_settled hcall ?_
      rintro e ⟨⟩
    exact ⟨tr,_,.ready hrun,hl,hs⟩
  | moved _ h hr _ _ =>
    obtain ⟨-,hb⟩ := served_lawful hr st.handle
    cases hb

theorem read_sound {tr : List Ev} {res : Except Stop (ℕ × List UInt8)} (h : (st.read buf).Run tr res)
    (hres : res ≠ .error .dropped) (hl : ∀ e ∈ tr, Lawful e) :
    (following (readPolicy buf.length)).Kept (.ask ()) tr ∧
      ∃ d, (following (readPolicy buf.length)).after (.ask ()) tr = .done d ∧ ReadEnds res d := by
  have hrel : (following (readPolicy buf.length)).Relied (.ask ()) tr :=
    Contract.relied_of_mem _ (fun _ => hl)
  match res with
  | .ok x => exact Contract.wpe_ok _ read_follows h hrel
  | .error (.err e) =>
    obtain ⟨hkept,hdone⟩ := Contract.wpe_error _ read_follows h hrel
    exact ⟨hkept,_,hdone e rfl,.error e⟩
  | .error .dropped => exact absurd rfl hres

theorem read_policy : Follows (readPolicy buf.length) (.ask ())
    (fun tr res => (st.read buf).Run tr res ∧ res ≠ .error .dropped) ReadEnds := by
  constructor
  · rintro tr res ⟨h,hres⟩ hl
    exact read_sound h hres hl
  · intro items d h
    obtain ⟨res,⟨tr,hrun,hl,hs⟩,hres⟩ := read_realised st (served_of_run _ h)
    exact ⟨tr,res,⟨hrun,hres⟩,hl,hs⟩

theorem driven_policy : Follows (readPolicy unfilled.length) (.ask ())
    (DrivenRead st unfilled false) (fun r d => r = toRead d) := by
  constructor
  · intro tr r h hl
    exact driven_phase h hl
  · intro items d h
    exact driven_realised (served_of_run _ h)

end VclRs
