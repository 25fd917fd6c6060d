import VclRs.Interaction.Runs
import VclRs.Streams.Traffic

namespace VclRs

open Interaction Fallible

inductive Item where
  | io (rc : Int) (data : List UInt8)
  | wait (outcome : Except VclError Unit)
deriving DecidableEq, Repr

def item : Ev → Option Item
  | ⟨.sessionRead _ _,(rc,data)⟩ => some (.io rc data)
  | ⟨.sessionWrite _ _,rc⟩ => some (.io rc [])
  | ⟨.select _ _ _,(_,.notified)⟩ => some (.wait (.ok ()))
  | ⟨.select _ _ _,(_,.elapsed)⟩ => some (.wait (.error .timeout))
  | ⟨.select _ _ _,(_,.readFailed e)⟩ => some (.wait (.error (.io e)))
  | ⟨.recheck _,(_,.notified)⟩ => some (.wait (.ok ()))
  | ⟨.waitPoll _ _,.ready outcome⟩ => some (.wait outcome)
  | _ => none

def slice : Ev → Option (List UInt8)
  | ⟨.sessionWrite _ buf,_⟩ => some buf
  | _ => none

def script (tr : List Ev) : List Item := tr.filterMap item

def slices (tr : List Ev) : List (List UInt8) := tr.filterMap slice

def Lawful : Ev → Prop
  | ⟨.waitPoll _ _,.ready (.error e)⟩ => WaitStop (.err e)
  | e => Within e

theorem script_cons (e : Ev) (tr : List Ev) :
    script (e :: tr) = (item e).elim (script tr) (· :: script tr) := by
  rw [script,List.filterMap_cons]
  cases item e <;> rfl

theorem slices_cons (e : Ev) (tr : List Ev) :
    slices (e :: tr) = (slice e).elim (slices tr) (· :: slices tr) := by
  rw [slices,List.filterMap_cons]
  cases slice e <;> rfl

inductive Phase (ρ β : Type) where
  | ask (r : ρ)
  | wait (r : ρ)
  | done (b : Except VclError β)
  | lost

def Phase.ofServed {ρ β : Type} : Option (ρ ⊕ Except VclError β) → Phase ρ β
  | none => .lost
  | some (.inl r) => .ask r
  | some (.inr b) => .done b

structure Policy (ρ β : Type) where
  carries : List UInt8 → Bool
  serve : ρ → Int → List UInt8 → Option (ρ ⊕ Except VclError β)
  submit : ρ → List (List UInt8)

section Phases

variable [Platform] {ρ β : Type} (P : Policy ρ β)

def Phase.next : Phase ρ β → Item → Phase ρ β
  | .ask r, .io rc data =>
    if P.carries data then
      if rc < 0 then if (fromRc rc).transient then .wait r else .done (.error (fromRc rc))
      else .ofServed (P.serve r rc data)
    else .lost
  | .wait r, .wait (.ok _) => .ask r
  | .wait _, .wait (.error .timeout) => .done (.error .timeout)
  | .wait _, .wait (.error (.io e)) => .done (.error (.io e))
  | _, _ => .lost

def Phase.run (q : Phase ρ β) (items : List Item) : Phase ρ β := items.foldl (Phase.next P) q

def Phase.due : Phase ρ β → List (List UInt8)
  | .ask r => P.submit r
  | _ => []

def Phase.submits : Phase ρ β → List Item → List (List UInt8)
  | _, [] => []
  | q, i :: items => q.due P ++ Phase.submits (q.next P i) items

variable {P} in
theorem ask_refused {r : ρ} {rc : Int} {data : List UInt8} (hc : P.carries data) (h : rc < 0) :
    (Phase.ask r).next P (.io rc data) =
      if (fromRc rc).transient then .wait r else .done (.error (fromRc rc)) := by
  rw [Phase.next,if_pos hc,if_pos h]

variable {P} in
theorem ask_served {r : ρ} {rc : Int} {data : List UInt8} (hc : P.carries data) (h : ¬rc < 0) :
    (Phase.ask r).next P (.io rc data) = .ofServed (P.serve r rc data) := by
  rw [Phase.next,if_pos hc,if_neg h]

theorem lost_run (items : List Item) : (Phase.lost : Phase ρ β).run P items = .lost := by
  induction items with
  | nil => rfl
  | cons i items ih => exact ih

theorem done_run {b b' : Except VclError β} {items : List Item}
    (h : (Phase.done b).run P items = .done b') : items = [] ∧ b = b' := by
  cases items with
  | nil =>
    cases h
    exact ⟨rfl,rfl⟩
  | cons i items =>
    have hlost : (Phase.done b).run P (i :: items) = .lost := lost_run P items
    rw [hlost] at h
    cases h

theorem phase_append (q : Phase ρ β) (xs ys : List Item) :
    q.run P (xs ++ ys) = (q.run P xs).run P ys := by
  simp [Phase.run,List.foldl_append]

theorem prefix_done {q : Phase ρ β} {xs ys : List Item} {b b' : Except VclError β}
    (hx : q.run P xs = .done b) (hy : q.run P ys = .done b') (h : xs <+: ys) : xs = ys ∧ b = b' := by
  obtain ⟨zs,rfl⟩ := h
  rw [phase_append,hx] at hy
  obtain ⟨rfl,rfl⟩ := done_run P hy
  exact ⟨(List.append_nil xs).symm,rfl⟩

theorem run_deterministic {q : Phase ρ β} {xs ys whole : List Item} {b b' : Except VclError β}
    (hx : q.run P xs = .done b) (hy : q.run P ys = .done b') (hxs : xs <+: whole)
    (hys : ys <+: whole) : xs = ys ∧ b = b' := by
  rcases List.prefix_or_prefix_of_prefix hxs hys with h | h
  · exact prefix_done P hx hy h
  · obtain ⟨heq,hb⟩ := prefix_done P hy hx h
    exact ⟨heq.symm,hb.symm⟩

inductive Served : ρ → List Item → Except VclError β → Prop
  | refused {r : ρ} {rc : Int} {data : List UInt8} (hc : P.carries data) (h : rc < 0)
      (ht : ¬(fromRc rc).transient) : Served r [.io rc data] (.error (fromRc rc))
  | retried {r : ρ} {rc : Int} {data : List UInt8} {items : List Item} {b : Except VclError β}
      (hc : P.carries data) (h : rc < 0) (ht : (fromRc rc).transient) (hs : Served r items b) :
      Served r (.io rc data :: .wait (.ok ()) :: items) b
  | failed {r : ρ} {rc : Int} {data : List UInt8} {e : VclError} (hc : P.carries data) (h : rc < 0)
      (ht : (fromRc rc).transient) (he : WaitStop (.err e)) :
      Served r [.io rc data,.wait (.error e)] (.error e)
  | finished {r : ρ} {rc : Int} {data : List UInt8} {b : Except VclError β} (hc : P.carries data)
      (h : ¬rc < 0) (hb : P.serve r rc data = some (.inr b)) : Served r [.io rc data] b
  | moved {r r' : ρ} {rc : Int} {data : List UInt8} {items : List Item} {b : Except VclError β}
      (hc : P.carries data) (h : ¬rc < 0) (hr : P.serve r rc data = some (.inl r'))
      (hs : Served r' items b) : Served r (.io rc data :: items) b

theorem wait_done {r : ρ} {items : List Item} {b : Except VclError β}
    (h : (Phase.wait r).run P items = .done b) :
    (∃ rest, items = .wait (.ok ()) :: rest ∧ (Phase.ask r).run P rest = .done b) ∨
      ∃ e, items = [.wait (.error e)] ∧ WaitStop (.err e) ∧ b = .error e := by
  match items, h with
  | .wait (.ok _) :: rest, h => exact .inl ⟨rest,rfl,h⟩
  | .wait (.error .timeout) :: rest, h =>
    obtain ⟨rfl,rfl⟩ := done_run P h
    exact .inr ⟨_,rfl,.timeout,rfl⟩
  | .wait (.error (.io e)) :: rest, h =>
    obtain ⟨rfl,rfl⟩ := done_run P h
    exact .inr ⟨_,rfl,.io e,rfl⟩
  | .wait (.error (.api _ _)) :: rest, h => exact absurd ((lost_run P rest).symm.trans h) (by simp)
  | .wait (.error .closed) :: rest, h => exact absurd ((lost_run P rest).symm.trans h) (by simp)
  | .wait (.error .notConnected) :: rest, h =>
    exact absurd ((lost_run P rest).symm.trans h) (by simp)
  | .wait (.error .wouldBlock) :: rest, h =>
    exact absurd ((lost_run P rest).symm.trans h) (by simp)
  | .io _ _ :: rest, h => exact absurd ((lost_run P rest).symm.trans h) (by simp)

theorem served_of_run {r : ρ} {items : List Item} {b : Except VclError β}
    (h : (Phase.ask r).run P items = .done b) : Served P r items b := by
  induction hn : items.length using Nat.strong_induction_on generalizing r items with
  | _ n ih =>
    subst hn
    match items, h with
    | .wait _ :: rest, h => exact absurd ((lost_run P rest).symm.trans h) (by simp)
    | .io rc data :: rest, h =>
      change ((Phase.ask r).next P (.io rc data)).run P rest = _ at h
      by_cases hc : P.carries data
      · by_cases hrc : rc < 0
        · rw [ask_refused hc hrc] at h
          by_cases ht : (fromRc rc).transient
          · rw [if_pos ht] at h
            rcases wait_done P h with ⟨rest',rfl,h'⟩ | ⟨e,rfl,he,rfl⟩
            · exact .retried hc hrc ht (ih _ (by rw [List.length_cons,List.length_cons]; omega) h' rfl)
            · exact .failed hc hrc ht he
          · rw [if_neg ht] at h
            obtain ⟨rfl,rfl⟩ := done_run P h
            exact .refused hc hrc ht
        · rw [ask_served hc hrc] at h
          match hs : P.serve r rc data with
          | none =>
            rw [hs] at h
            exact absurd ((lost_run P rest).symm.trans h) (by simp)
          | some (.inl r') =>
            rw [hs] at h
            exact .moved hc hrc hs (ih _ (by simp) h rfl)
          | some (.inr b') =>
            rw [hs] at h
            obtain ⟨rfl,rfl⟩ := done_run P h
            exact .finished hc hrc hs
      · rw [Phase.next,if_neg hc] at h
        exact absurd ((lost_run P rest).symm.trans h) (by simp)

def following : Contract Call Reply (Phase ρ β) where
  rely _ := Lawful
  guar q e := (slice e).toList = (item e).elim [] (fun _ => q.due P)
  next q e := (item e).elim q (q.next P)

theorem following_after (q : Phase ρ β) (tr : List Ev) :
    (following P).after q tr = q.run P (script tr) := by
  induction tr generalizing q with
  | nil => rfl
  | cons e tr ih =>
    rw [Contract.after_cons,ih,script_cons]
    change ((item e).elim q (q.next P)).run P (script tr) = _
    cases item e <;> rfl

theorem following_slices {q : Phase ρ β} {tr : List Ev} (h : (following P).Kept q tr) :
    slices tr = q.submits P (script tr) := by
  induction tr generalizing q with
  | nil => rfl
  | cons e tr ih =>
    have hrest := ih h.2
    have hhead : (slice e).toList = (item e).elim [] (fun _ => q.due P) := h.1
    have hsplit : slices (e :: tr) = (slice e).toList ++ slices tr := by
      rw [slices_cons]
      cases slice e <;> rfl
    rw [hsplit,hhead,hrest,script_cons]
    change _ ++ Phase.submits P ((item e).elim q (q.next P)) (script tr) = _
    cases item e <;> rfl

variable {P} {r : ρ}

theorem waitEvent_follows {reactor : VclReactor} {sh : Handle} {mask : UInt32} {timeout : Duration} :
    (following P).wpe (reactor.waitEvent sh mask timeout) (fun _ q => q = .ask r)
      (fun st q => ∀ e, st = .err e → q = .done (.error e)) (.wait r) := by
  rw [VclReactor.waitEvent,Contract.wpe_bind,Contract.wpe_call]
  intro n _
  refine ⟨rfl,?_⟩
  rw [Contract.wpe_bind]
  intro now _
  refine ⟨rfl,?_⟩
  refine waitLoop_rule (I := fun q => q = .wait r) ?_ ?_ ?_ ?_ rfl
  · rintro _ ⟨now,sel⟩ rfl -
    cases sel with
    | readFailed e =>
      refine ⟨rfl,?_⟩
      rintro _ ⟨⟩
      rfl
    | readable => exact ⟨rfl,rfl⟩
    | notified => exact ⟨rfl,rfl⟩
    | elapsed =>
      refine ⟨rfl,?_⟩
      rintro _ ⟨⟩
      rfl
    | dropped =>
      refine ⟨rfl,?_⟩
      rintro _ ⟨⟩
  · rintro _ ⟨op,x⟩ rfl hop -
    cases hop with
    | drain => exact ⟨rfl,rfl⟩
    | notify sh' => exact ⟨rfl,rfl⟩
  · rintro _ x rfl -
    exact ⟨rfl,rfl⟩
  · rintro _ ⟨now,again⟩ rfl -
    cases again with
    | notified => exact ⟨rfl,rfl⟩
    | elapsed => exact ⟨rfl,rfl⟩
    | dropped =>
      refine ⟨rfl,?_⟩
      rintro _ ⟨⟩

theorem polling_follows {st : VclStream} {cx : ℕ} {α γ : Type} {io : Vcl α}
    {settle : Except VclError α → Except IoError γ} {E : Stop → Phase ρ β → Prop}
    {Q : Poll (Except IoError γ) × Bool → Phase ρ β → Prop}
    (hio : (following P).wpe (attempt io) (fun x q =>
      (∃ e, x = .error e ∧ e.transient ∧ q = .wait r) ∨
        (∀ e, x = .error e → ¬e.transient) ∧ Q (.ready (settle x),false) q) E (.ask r))
    (hpending : Q (.pending,true) (.wait r))
    (hfailed : ∀ e, WaitStop (.err e) → Q (.ready (.error (vclToIo e)),false) (.done (.error e)))
    (pending : Bool) : (following P).wpe (st.polling cx io settle pending) Q E
      (if pending then .wait r else .ask r) := by
  refine polling_wpe (fun pending q => q = if pending then .wait r else .ask r) ?_ ?_ rfl
  · rintro _ rfl p hp
    match p, hp with
    | .pending, _ => exact ⟨rfl,hpending⟩
    | .ready (.error _), .timeout => exact ⟨rfl,hfailed _ .timeout⟩
    | .ready (.error _), .io e => exact ⟨rfl,hfailed _ (.io e)⟩
    | .ready (.ok _), _ => exact ⟨rfl,rfl⟩
  · rintro _ rfl
    refine Contract.wpe_mono _ hio ?_ (fun _ _ h => h)
    rintro x q (⟨e,rfl,ht,rfl⟩ | ⟨hfinal,hq⟩)
    · simp only [if_pos ht,VclStream.arm,instantNow,Contract.wpe_bind,Contract.wpe_call,
        Contract.wpe_pure]
      intro n _
      refine ⟨rfl,?_⟩
      intro now _
      exact ⟨rfl,rfl⟩
    · cases x with
      | ok x => exact hq
      | error e =>
        simp only [if_neg (hfinal e rfl)]
        exact hq

end Phases

structure Follows [Platform] {ρ β ω : Type} (P : Policy ρ β) (q : Phase ρ β)
    (runs : List Ev → ω → Prop) (ends : ω → Except VclError β → Prop) : Prop where
  sound : ∀ tr w, runs tr w → (∀ e ∈ tr, Lawful e) →
    (following P).Kept q tr ∧ ∃ b, (following P).after q tr = .done b ∧ ends w b
  complete : ∀ items b, q.run P items = .done b →
    ∃ tr w, runs tr w ∧ (∀ e ∈ tr, Lawful e) ∧ script tr = items

structure Agrees {ω ω' : Type} (runs : List Ev → ω → Prop) (runs' : List Ev → ω' → Prop)
    (corresponds : ω → ω' → Prop) : Prop where
  forward : ∀ tr w, runs tr w → (∀ e ∈ tr, Lawful e) →
    ∃ tr' w', runs' tr' w' ∧ (∀ e ∈ tr', Lawful e) ∧ script tr' = script tr
  backward : ∀ tr' w', runs' tr' w' → (∀ e ∈ tr', Lawful e) →
    ∃ tr w, runs tr w ∧ (∀ e ∈ tr, Lawful e) ∧ script tr = script tr'
  together : ∀ tr w tr' w' whole, runs tr w → (∀ e ∈ tr, Lawful e) → runs' tr' w' →
    (∀ e ∈ tr', Lawful e) → script tr <+: whole → script tr' <+: whole →
      script tr = script tr' ∧ slices tr = slices tr' ∧ corresponds w w'

theorem agrees_of_follows [Platform] {ρ β ω ω' : Type} {P : Policy ρ β} {q : Phase ρ β}
    {runs : List Ev → ω → Prop} {runs' : List Ev → ω' → Prop} {ends : ω → Except VclError β → Prop}
    {ends' : ω' → Except VclError β → Prop} {corresponds : ω → ω' → Prop}
    (h : Follows P q runs ends) (h' : Follows P q runs' ends')
    (hmatch : ∀ w w' b, ends w b → ends' w' b → corresponds w w') : Agrees runs runs' corresponds := by
  constructor
  · intro tr w hr hl
    obtain ⟨-,b,hb,-⟩ := h.sound tr w hr hl
    rw [following_after] at hb
    exact h'.complete _ b hb
  · intro tr' w' hr hl
    obtain ⟨-,b,hb,-⟩ := h'.sound tr' w' hr hl
    rw [following_after] at hb
    exact h.complete _ b hb
  · intro tr w tr' w' whole hr hl hr' hl' hpre hpre'
    obtain ⟨hkept,b,hb,hw⟩ := h.sound tr w hr hl
    obtain ⟨hkept',b',hb',hw'⟩ := h'.sound tr' w' hr' hl'
    rw [following_after] at hb hb'
    obtain ⟨hscript,rfl⟩ := run_deterministic P hb hb' hpre hpre'
    refine ⟨hscript,?_,hmatch w w' b hw hw'⟩
    rw [following_slices P hkept,following_slices P hkept',hscript]

def Realises {α : Type} (x : Vcl α) (items : List Item) (res : Except Stop α) : Prop :=
  ∃ tr, x.Run tr res ∧ (∀ e ∈ tr, Lawful e) ∧ script tr = items

section Realising

variable {α β ι : Type} {x : Vcl α} {xs ys : List Item}

theorem lawful_append {tr tr' : List Ev} (h : ∀ e ∈ tr, Lawful e) (h' : ∀ e ∈ tr', Lawful e) :
    ∀ e ∈ tr ++ tr', Lawful e := by
  intro e he
  rcases List.mem_append.mp he with he | he
  · exact h e he
  · exact h' e he

theorem script_append (tr tr' : List Ev) : script (tr ++ tr') = script tr ++ script tr' :=
  List.filterMap_append

theorem realises_pure (a : α) : Realises (pure a : Vcl α) [] (.ok a) :=
  ⟨[],run_pure a,by simp,rfl⟩

theorem realises_err (e : VclError) : Realises (err e : Vcl α) [] (.error (.err e)) :=
  ⟨[],.ret _,by simp,rfl⟩

theorem realises_call (o : Call) (r : Reply o) (h : Lawful ⟨o,r⟩) :
    Realises (ffi o) (item ⟨o,r⟩).toList (.ok r) := by
  refine ⟨[⟨o,r⟩],run_call o r,by simpa using h,?_⟩
  rw [script_cons]
  cases item ⟨o,r⟩ <;> rfl

theorem realises_bind {f : α → Vcl β} {a : α} {res : Except Stop β} (h : Realises x xs (.ok a))
    (hf : Realises (f a) ys res) : Realises (x >>= f) (xs ++ ys) res := by
  obtain ⟨tr,hr,hl,rfl⟩ := h
  obtain ⟨tr',hr',hl',rfl⟩ := hf
  exact ⟨tr ++ tr',run_bind hr hr',lawful_append hl hl',script_append tr tr'⟩

theorem realises_bind_error {f : α → Vcl β} {e : Stop} (h : Realises x xs (.error e)) :
    Realises (x >>= f) xs (.error e) := by
  obtain ⟨tr,hr,hl,hs⟩ := h
  exact ⟨tr,run_bind_error hr,hl,hs⟩

theorem realises_again {body : ι → Vcl (ι ⊕ α)} {i i' : ι} {res : Except Stop α}
    (h : Realises (body i) xs (.ok (.inl i'))) (hr : Realises (Fallible.loop body i') ys res) :
    Realises (Fallible.loop body i) (xs ++ ys) res := by
  obtain ⟨tr,hrun,hl,rfl⟩ := h
  obtain ⟨tr',hrun',hl',rfl⟩ := hr
  exact ⟨tr ++ tr',run_again hrun hrun',lawful_append hl hl',script_append tr tr'⟩

theorem realises_last {body : ι → Vcl (ι ⊕ α)} {i : ι} {r : Except Stop (ι ⊕ α)}
    {res : Except Stop α} (h : Realises (body i) xs r) (hr : Fallible.flip r = .inr res) :
    Realises (Fallible.loop body i) xs res := by
  obtain ⟨tr,hrun,hl,hs⟩ := h
  exact ⟨tr,run_last hrun hr,hl,hs⟩

theorem realises_waitEvent {r : VclReactor} {sh : Handle} {mask : UInt32} {timeout : Duration}
    (sel : Selected) {res : Except Stop Unit} {outcome : Except VclError Unit}
    (hsel : item ⟨.select r.vep 0 timeout,(0,sel)⟩ = some (.wait outcome))
    (hres : res = outcome.mapError Stop.err) :
    Realises (r.waitEvent sh mask timeout) [.wait outcome] res := by
  refine ⟨[⟨.waitersEntry r.vep sh,(0 : ℕ)⟩,⟨.instantNow,(0 : ℕ)⟩,
    ⟨.select r.vep 0 (0 + timeout),((0 : ℕ),sel)⟩],?_,?_,?_⟩
  · refine .call _ (.call _ (.unroll 1 (.call _ ?_)))
    cases sel with
    | notified =>
      cases hsel
      subst hres
      exact .ret _
    | elapsed =>
      cases hsel
      subst hres
      exact .ret _
    | readFailed e =>
      cases hsel
      subst hres
      exact .ret _
    | readable => cases hsel
    | dropped => cases hsel
  · simp [Lawful,Within]
  · have hscript : script [⟨.waitersEntry r.vep sh,(0 : ℕ)⟩,⟨.instantNow,(0 : ℕ)⟩,
        ⟨.select r.vep 0 (0 + timeout),((0 : ℕ),sel)⟩] =
        (item ⟨.select r.vep 0 timeout,(0,sel)⟩).toList := by
      cases sel <;> rfl
    rw [hscript,hsel]
    rfl

theorem realises_waitFailed {r : VclReactor} {sh : Handle} {mask : UInt32} {timeout : Duration}
    {e : VclError} (he : WaitStop (.err e)) :
    Realises (r.waitEvent sh mask timeout) [.wait (.error e)] (.error (.err e)) := by
  cases he with
  | timeout => exact realises_waitEvent .elapsed rfl rfl
  | io e => exact realises_waitEvent (.readFailed e) rfl rfl

section Polls

variable {st : VclStream} {cx : ℕ} {io : Vcl α} {settle : Except VclError α → Except IoError β}

theorem realises_settled {r : Except VclError α} (h : Realises (attempt io) xs (.ok r))
    (hr : ∀ e, r = .error e → ¬e.transient) :
    Realises (st.polling cx io settle false) xs (.ok (.ready (settle r),false)) := by
  have hbody : Realises (st.trying io settle) (xs ++ []) (.ok (.inr (.ready (settle r),false))) := by
    refine realises_bind h ?_
    cases r with
    | ok x => exact realises_pure _
    | error e =>
      simp only [if_neg (hr e rfl)]
      exact realises_pure _
  rw [List.append_nil] at hbody
  exact realises_last hbody rfl

theorem realises_parked {e : VclError} (h : Realises (attempt io) xs (.ok (.error e)))
    (ht : e.transient) : Realises (st.polling cx io settle false) xs (.ok (.pending,true)) := by
  have hbody : Realises (st.trying io settle) (xs ++ []) (.ok (.inl true)) := by
    refine realises_bind h ?_
    simp only [if_pos ht]
    exact ⟨[⟨.waitersEntry st.reactor.vep st.handle,(0 : ℕ)⟩,⟨.instantNow,(0 : ℕ)⟩],
      .call _ (.call _ (.ret _)),by simp [Lawful,Within],rfl⟩
  have hpass : Realises (st.pass cx io settle true) ([] ++ []) (.ok (.inr (.pending,true))) :=
    realises_bind (realises_call (.waitPoll st.handle cx) .pending trivial) (realises_pure _)
  have hpoll : Realises (st.polling cx io settle true) [] (.ok (.pending,true)) :=
    realises_last hpass rfl
  rw [List.append_nil] at hbody
  have hrun : Realises (st.polling cx io settle false) (xs ++ []) (.ok (.pending,true)) :=
    realises_again hbody hpoll
  rw [List.append_nil] at hrun
  exact hrun

theorem realises_unparked {e : VclError} (he : WaitStop (.err e)) :
    Realises (st.polling cx io settle true) [.wait (.error e)]
      (.ok (.ready (.error (vclToIo e)),false)) := by
  have hpass : Realises (st.pass cx io settle true) ([.wait (.error e)] ++ [])
      (.ok (.inr (.ready (.error (vclToIo e)),false))) :=
    realises_bind (realises_call (.waitPoll st.handle cx) (.ready (.error e)) he) (realises_pure _)
  exact realises_last hpass rfl

theorem polling_woken {tr : List Ev} {r : Except Stop (Poll (Except IoError β) × Bool)}
    (h : (st.polling cx io settle false).Run tr r) :
    (st.polling cx io settle true).Run (⟨.waitPoll st.handle cx,.ready (.ok ())⟩ :: tr) r := by
  cases h with
  | unroll n h =>
    cases n with
    | zero => cases h
    | succ n =>
      refine .unroll (n + 1) ?_
      exact @Prog.Run.call Call Reply _ (.waitPoll st.handle cx) _ _ _ (.ready (.ok ())) h

theorem woken_lawful {tr : List Ev} (h : ∀ e ∈ tr, Lawful e) :
    ∀ e ∈ (⟨.waitPoll st.handle cx,.ready (.ok ())⟩ :: tr : List Ev), Lawful e := by
  intro e he
  rcases List.mem_cons.mp he with rfl | he
  · trivial
  · exact h e he

end Polls

end Realising

end VclRs
