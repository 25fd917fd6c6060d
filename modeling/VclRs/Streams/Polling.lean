import VclRs.Footprint

namespace VclRs

open Interaction Fallible

namespace VclStream

section Methods

variable {α β : Type}

def trying (s : VclStream) (io : Vcl α) (settle : Except VclError α → Except IoError β) :
    Vcl (Bool ⊕ (Poll (Except IoError β) × Bool)) := do
  match ← attempt io with
  | .ok x => pure (.inr (.ready (settle (.ok x)),false))
  | .error e =>
    if e.transient then do
      s.arm
      pure (.inl true)
    else pure (.inr (.ready (settle (.error e)),false))

def pass (s : VclStream) (cx : ℕ) (io : Vcl α) (settle : Except VclError α → Except IoError β)
    (pending : Bool) : Vcl (Bool ⊕ (Poll (Except IoError β) × Bool)) := do
  match ← s.pollPending pending cx with
  | .pending => pure (.inr (.pending,true))
  | .ready (.error e) => pure (.inr (.ready (.error (vclToIo e)),false))
  | .ready (.ok _) => s.trying io settle

def polling (s : VclStream) (cx : ℕ) (io : Vcl α) (settle : Except VclError α → Except IoError β)
    (pending : Bool) : Vcl (Poll (Except IoError β) × Bool) :=
  Fallible.loop (s.pass cx io settle) pending

def readSettled : Except VclError (ℕ × List UInt8) → Except IoError (List UInt8)
  | .ok x => .ok (x.2.take x.1)
  | .error e => if e = .closed then .ok [] else .error (vclToIo e)

def writeSettled : Except VclError ℕ → Except IoError ℕ
  | .ok n => .ok n
  | .error e => .error (vclToIo e)

variable [Platform] (s : VclStream)

theorem pollRead_eq (pending : Bool) (cx : ℕ) (unfilled : List UInt8) :
    s.pollRead pending cx unfilled =
      s.polling cx (sessionRead s.handle unfilled) readSettled pending := by
  rw [pollRead,polling]
  congr 1
  funext pending
  rw [pass]
  congr 1
  funext p
  cases p with
  | pending => rfl
  | ready r =>
    cases r with
    | error e => rfl
    | ok _ =>
      refine congrArg (attempt (sessionRead s.handle unfilled) >>= ·) ?_
      funext x
      cases x with
      | ok x => rfl
      | error e =>
        refine congrArg (fun y => if e.transient then _ else y) ?_
        rw [readSettled]
        by_cases h : e = .closed
        · rw [if_pos h,if_pos h]
        · rw [if_neg h,if_neg h]

theorem pollWrite_eq (pending : Bool) (cx : ℕ) (buf : List UInt8) :
    s.pollWrite pending cx buf =
      s.polling cx (sessionWrite s.handle buf) writeSettled pending := by
  rw [pollWrite,polling]
  congr 1
  funext pending
  rw [pass]
  congr 1
  funext p
  cases p with
  | pending => rfl
  | ready r =>
    cases r with
    | error e => rfl
    | ok _ =>
      refine congrArg (attempt (sessionWrite s.handle buf) >>= ·) ?_
      funext x
      cases x <;> rfl

end Methods

end VclStream

section Transfer

variable [Platform] {σ : Type} {C : Contract Call Reply σ} {sh : Handle} {buf : List UInt8} {s : σ}
variable {E : Stop → σ → Prop}

theorem sessionRead_wpe {Q : Except VclError (ℕ × List UInt8) → σ → Prop}
    (h : ∀ x, C.rely s ⟨.sessionRead sh buf.length,x⟩ → C.guar s ⟨.sessionRead sh buf.length,x⟩ ∧
      (x.1 < 0 → Q (.error (fromRc x.1)) (C.next s ⟨.sessionRead sh buf.length,x⟩)) ∧
      (¬x.1 < 0 → Q (.ok (x.1.toNat,patch buf x.2)) (C.next s ⟨.sessionRead sh buf.length,x⟩))) :
    C.wpe (attempt (sessionRead sh buf)) Q E s := by
  simp only [sessionRead,checkRc,wpe_attempt,wpe_rejectIf,Contract.wpe_bind,Contract.wpe_call,
    Contract.wpe_pure]
  intro x hx
  obtain ⟨hg,hneg,hpos⟩ := h x hx
  refine ⟨hg,?_⟩
  split_ifs with hrc
  · exact hneg hrc
  · exact hpos hrc

theorem sessionWrite_wpe {Q : Except VclError ℕ → σ → Prop}
    (h : ∀ rc : Int, C.rely s ⟨.sessionWrite sh buf,rc⟩ → C.guar s ⟨.sessionWrite sh buf,rc⟩ ∧
      (rc < 0 → Q (.error (fromRc rc)) (C.next s ⟨.sessionWrite sh buf,rc⟩)) ∧
      (¬rc < 0 → Q (.ok rc.toNat) (C.next s ⟨.sessionWrite sh buf,rc⟩))) :
    C.wpe (attempt (sessionWrite sh buf)) Q E s := by
  simp only [sessionWrite,checkRc,wpe_attempt,wpe_rejectIf,Contract.wpe_bind,Contract.wpe_call,
    Contract.wpe_pure]
  intro rc hx
  obtain ⟨hg,hneg,hpos⟩ := h rc hx
  refine ⟨hg,?_⟩
  split_ifs with hrc
  · exact hneg hrc
  · exact hpos hrc

end Transfer

section Rule

variable {σ α β : Type} {C : Contract Call Reply σ} {st : VclStream} {cx : ℕ} {io : Vcl α}
variable {settle : Except VclError α → Except IoError β}
variable {Q : Poll (Except IoError β) × Bool → σ → Prop} {E : Stop → σ → Prop}

theorem polling_wpe (I : Bool → σ → Prop)
    (hpoll : ∀ s, I true s → ∀ p, C.rely s ⟨.waitPoll st.handle cx,p⟩ →
      C.guar s ⟨.waitPoll st.handle cx,p⟩ ∧
        match p with
        | .pending => Q (.pending,true) (C.next s ⟨.waitPoll st.handle cx,.pending⟩)
        | .ready (.error e) => Q (.ready (.error (vclToIo e)),false)
            (C.next s ⟨.waitPoll st.handle cx,.ready (.error e)⟩)
        | .ready (.ok _) => I false (C.next s ⟨.waitPoll st.handle cx,.ready (.ok ())⟩))
    (hio : ∀ s, I false s → C.wpe (attempt io) (fun
      | .ok x => Q (.ready (settle (.ok x)),false)
      | .error e =>
        if e.transient then C.wpe st.arm (fun _ => I true) E
        else Q (.ready (settle (.error e)),false)) E s)
    {pending : Bool} {s : σ} (hs : I pending s) : C.wpe (st.polling cx io settle pending) Q E s := by
  refine C.wpe_loop I ?_ hs
  intro pending s hs
  have hready : ∀ s, I false s → C.wpe (st.trying io settle)
      (fun r s' => r.elim (I · s') (Q · s')) E s := by
    intro s hs
    rw [VclStream.trying,Contract.wpe_bind]
    refine C.wpe_mono (hio s hs) ?_ (fun _ _ h => h)
    intro x s' hx
    cases x with
    | ok x => exact hx
    | error e =>
      change (if e.transient then _ else _ : σ → Prop) s' at hx
      simp only [Contract.wpe_ite,Contract.wpe_bind,Contract.wpe_pure]
      split_ifs at hx ⊢ with he
      · exact hx
      · exact hx
  rw [VclStream.pass,Contract.wpe_bind]
  cases pending with
  | false => exact hready s hs
  | true =>
    intro p hp
    obtain ⟨hg,hn⟩ := hpoll s hs p hp
    refine ⟨hg,?_⟩
    match p with
    | .pending => exact hn
    | .ready (.error e) => exact hn
    | .ready (.ok _) => exact hready _ hn

end Rule

end VclRs
