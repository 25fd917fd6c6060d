import VclRs.Interaction.Runs

namespace Interaction

variable {Op : Type} {Reply : Op → Type} {α β ε σ : Type}

namespace Fallible

section Rounds

variable {body : σ → Fallible Op Reply ε (σ ⊕ α)} {s : σ} {tr : List (Event Op Reply)} {r : Except ε α}

inductive Rounds (body : σ → Fallible Op Reply ε (σ ⊕ α)) :
    σ → List (Event Op Reply) → Except ε α → Prop
  | last {s : σ} {tr : List (Event Op Reply)} {x : Except ε (σ ⊕ α)} {r : Except ε α}
      (h : (body s).Run tr x) (hx : flip x = .inr r) : Rounds body s tr r
  | again {s s' : σ} {tr tr' : List (Event Op Reply)} {r : Except ε α}
      (h : (body s).Run tr (.ok (.inl s'))) (hr : Rounds body s' tr' r) : Rounds body s (tr ++ tr') r

theorem rounds_run (h : Rounds body s tr r) : (loop body s).Run tr r := by
  induction h with
  | last h hx => exact run_last h hx
  | again h _ ih => exact run_again h ih

theorem run_rounds (h : (loop body s).Run tr r) : Rounds body s tr r := by
  cases h with
  | unroll n h =>
    induction n generalizing s tr with
    | zero => cases h
    | succ n ih =>
      obtain ⟨tr₁,tr₂,y,rfl,hy,hrest⟩ := Prog.run_bind_inv h
      obtain ⟨tr₁,tr₃,x,rfl,hx,hflip⟩ := Prog.run_bind_inv hy
      cases hflip with
      | ret =>
        rw [List.append_nil]
        rcases x with e | s' | a
        · cases hrest
          rw [List.append_nil]
          exact .last hx rfl
        · exact .again hx (ih hrest)
        · cases hrest
          rw [List.append_nil]
          exact .last hx rfl

theorem loop_iff : (loop body s).Run tr r ↔ Rounds body s tr r := ⟨run_rounds,rounds_run⟩

end Rounds

section Flatten

variable {inner : σ → Fallible Op Reply ε (Unit ⊕ β)} {more : σ → Prop} [DecidablePred more]
variable {next : σ → β → σ} {last : σ → α} {s : σ} {tr : List (Event Op Reply)} {r : Except ε α}

def nested (inner : σ → Fallible Op Reply ε (Unit ⊕ β)) (more : σ → Prop) [DecidablePred more]
    (next : σ → β → σ) (last : σ → α) (s : σ) : Fallible Op Reply ε (σ ⊕ α) :=
  if more s then loop (fun _ => inner s) () >>= fun b => pure (.inl (next s b))
  else pure (.inr (last s))

def flattened (inner : σ → Fallible Op Reply ε (Unit ⊕ β)) (more : σ → Prop) [DecidablePred more]
    (next : σ → β → σ) (last : σ → α) (s : σ) : Fallible Op Reply ε (σ ⊕ α) :=
  if more s then inner s >>= fun x => pure (.inl (x.elim (fun _ => s) (next s)))
  else pure (.inr (last s))

theorem run_map_iff {f : α → β} {x : Fallible Op Reply ε α} {y : Except ε β} :
    (x >>= fun a => pure (f a)).Run tr y ↔ ∃ z, x.Run tr z ∧ y = z.map f := by
  constructor
  · intro h
    rcases run_bind_cases h with ⟨tr₁,tr₂,a,rfl,hx,hf⟩ | ⟨e,he,rfl⟩
    · cases hf
      rw [List.append_nil]
      exact ⟨.ok a,hx,rfl⟩
    · exact ⟨.error e,he,rfl⟩
  · rintro ⟨z,hz,rfl⟩
    cases z with
    | ok a => exact Prog.run_ret hz rfl
    | error e => exact run_bind_error hz

theorem flattened_iff (hs : more s) {y : Except ε (σ ⊕ α)} :
    (flattened inner more next last s).Run tr y ↔
      ∃ z, (inner s).Run tr z ∧ y = z.map (fun x => .inl (x.elim (fun _ => s) (next s))) := by
  rw [flattened,if_pos hs]
  exact run_map_iff

theorem nested_iff (hs : more s) {y : Except ε (σ ⊕ α)} :
    (nested inner more next last s).Run tr y ↔
      ∃ z, Rounds (fun _ => inner s) () tr z ∧ y = z.map (fun b => .inl (next s b)) := by
  rw [nested,if_pos hs,run_map_iff]
  simp only [loop_iff]

theorem flattened_failed {i : Unit} {x : Except ε β} {e : ε} (hs : more s)
    (h : Rounds (fun _ => inner s) i tr x) (hx : x = .error e) :
    Rounds (flattened inner more next last) s tr (.error e) := by
  induction h with
  | @last _ _ y _ h hy =>
    subst hx
    rcases y with e | _ | b
    · cases hy
      exact .last ((flattened_iff hs).mpr ⟨_,h,rfl⟩) rfl
    · cases hy
    · cases hy
  | again h _ ih => exact .again ((flattened_iff hs).mpr ⟨_,h,rfl⟩) (ih hx)

theorem flattened_moved {i : Unit} {x : Except ε β} {b : β} {tr' : List (Event Op Reply)} (hs : more s)
    (h : Rounds (fun _ => inner s) i tr x) (hx : x = .ok b)
    (hr : Rounds (flattened inner more next last) (next s b) tr' r) :
    Rounds (flattened inner more next last) s (tr ++ tr') r := by
  induction h with
  | @last _ _ y _ h hy =>
    subst hx
    rcases y with e | _ | b
    · cases hy
    · cases hy
    · cases hy
      exact .again ((flattened_iff hs).mpr ⟨_,h,rfl⟩) hr
  | again h _ ih =>
    rw [List.append_assoc]
    exact .again ((flattened_iff hs).mpr ⟨_,h,rfl⟩) (ih hx)

theorem nested_again {tr' : List (Event Op Reply)} (hs : more s) (h : (inner s).Run tr (.ok (.inl ())))
    (hr : Rounds (nested inner more next last) s tr' r) :
    Rounds (nested inner more next last) s (tr ++ tr') r := by
  cases hr with
  | last hlast hx =>
    obtain ⟨z,hz,rfl⟩ := (nested_iff hs).mp hlast
    exact .last ((nested_iff hs).mpr ⟨z,.again h hz,rfl⟩) hx
  | again hagain hrest =>
    obtain ⟨z,hz,heq⟩ := (nested_iff hs).mp hagain
    rw [← List.append_assoc]
    exact .again ((nested_iff hs).mpr ⟨z,.again h hz,heq⟩) hrest

theorem rounds_flattened (h : Rounds (nested inner more next last) s tr r) :
    Rounds (flattened inner more next last) s tr r := by
  induction h with
  | @last s _ _ _ h hx =>
    by_cases hs : more s
    · obtain ⟨z,hz,rfl⟩ := (nested_iff hs).mp h
      cases z with
      | ok b => cases hx
      | error e =>
        cases hx
        exact flattened_failed hs hz rfl
    · rw [nested,if_neg hs] at h
      refine .last ?_ hx
      rw [flattened,if_neg hs]
      exact h
  | @again s _ _ _ _ h _ ih =>
    by_cases hs : more s
    · obtain ⟨z,hz,heq⟩ := (nested_iff hs).mp h
      cases z with
      | ok b =>
        cases heq
        exact flattened_moved hs hz rfl ih
      | error e => cases heq
    · rw [nested,if_neg hs] at h
      cases h

theorem rounds_nested (h : Rounds (flattened inner more next last) s tr r) :
    Rounds (nested inner more next last) s tr r := by
  induction h with
  | @last s _ _ _ h hx =>
    by_cases hs : more s
    · obtain ⟨z,hz,rfl⟩ := (flattened_iff hs).mp h
      cases z with
      | ok b => cases hx
      | error e => exact .last ((nested_iff hs).mpr ⟨.error e,.last hz rfl,rfl⟩) hx
    · rw [flattened,if_neg hs] at h
      refine .last ?_ hx
      rw [nested,if_neg hs]
      exact h
  | @again s _ _ _ _ h _ ih =>
    by_cases hs : more s
    · obtain ⟨z,hz,heq⟩ := (flattened_iff hs).mp h
      rcases z with e | _ | b
      · cases heq
      · cases heq
        exact nested_again hs hz ih
      · cases heq
        exact .again ((nested_iff hs).mpr ⟨.ok b,.last hz rfl,rfl⟩) ih
    · rw [flattened,if_neg hs] at h
      cases h

theorem run_flattened : (loop (nested inner more next last) s).Run tr r ↔
    (loop (flattened inner more next last) s).Run tr r := by
  rw [loop_iff,loop_iff]
  exact ⟨rounds_flattened,rounds_nested⟩

end Flatten

end Fallible

structure Likening (Op : Type) (Reply : Op → Type) where
  shown : Event Op Reply → Bool
  left : Event Op Reply → Prop
  right : Event Op Reply → Prop

namespace Likening

variable (L : Likening Op Reply)

structure Pairs (tr tr' : List (Event Op Reply)) : Prop where
  right : ∀ e ∈ tr', L.right e
  shown : tr'.filter L.shown = tr.filter L.shown

def Covers (x y : Fallible Op Reply ε α) : Prop :=
  ∀ tr r, x.Run tr r → (∀ e ∈ tr, L.left e) → ∃ tr', y.Run tr' r ∧ L.Pairs tr tr'

variable {L} {tr₁ tr₂ tr₁' tr₂' : List (Event Op Reply)} {x y : Fallible Op Reply ε α}

theorem pairs_append (h₁ : L.Pairs tr₁ tr₁') (h₂ : L.Pairs tr₂ tr₂') :
    L.Pairs (tr₁ ++ tr₂) (tr₁' ++ tr₂') := by
  refine ⟨List.forall_mem_append.mpr ⟨h₁.right,h₂.right⟩,?_⟩
  rw [List.filter_append,List.filter_append,h₁.shown,h₂.shown]

theorem pairs_hidden (hright : ∀ e ∈ tr₁', L.right e) (h : ∀ e ∈ tr₁, L.shown e = false)
    (h' : ∀ e ∈ tr₁', L.shown e = false) : L.Pairs tr₁ tr₁' := by
  refine ⟨hright,?_⟩
  have hnone {tr : List (Event Op Reply)} (h : ∀ e ∈ tr, L.shown e = false) : tr.filter L.shown = [] := by
    rw [List.filter_eq_nil_iff]
    intro e he
    rw [h e he]
    exact Bool.false_ne_true
  rw [hnone h,hnone h']

theorem covers_self {P : Op → Prop} (hP : ∀ e, P e.op → L.left e → L.right e) (h : x.Calls P) :
    L.Covers x x := by
  intro tr r hr hleft
  exact ⟨tr,hr,fun e he => hP e (Prog.calls_run h hr e he) (hleft e he),rfl⟩

theorem covers_bind {f g : α → Fallible Op Reply ε β} (h : L.Covers x y)
    (hf : ∀ a, L.Covers (f a) (g a)) : L.Covers (x >>= f) (y >>= g) := by
  intro tr r hr hleft
  rcases Fallible.run_bind_cases hr with ⟨tr₁,tr₂,a,rfl,hx,ha⟩ | ⟨e,he,rfl⟩
  · obtain ⟨hleft₁,hleft₂⟩ := List.forall_mem_append.mp hleft
    obtain ⟨tr₁',hy,hp₁⟩ := h tr₁ _ hx hleft₁
    obtain ⟨tr₂',hg,hp₂⟩ := hf a tr₂ r ha hleft₂
    exact ⟨_,Fallible.run_bind hy hg,pairs_append hp₁ hp₂⟩
  · obtain ⟨tr',hy,hp⟩ := h tr _ he hleft
    exact ⟨tr',Fallible.run_bind_error hy,hp⟩

inductive Answers (L : Likening Op Reply) (body : σ → Fallible Op Reply ε (σ ⊕ α)) (s : σ)
    (tr : List (Event Op Reply)) : Except ε (σ ⊕ α) → Prop
  | turn {x : Except ε (σ ⊕ α)} {tr' : List (Event Op Reply)} (h : (body s).Run tr' x)
      (hp : L.Pairs tr tr') : Answers L body s tr x
  | rest {x : Except ε (σ ⊕ α)} {r : Except ε α} {tr' : List (Event Op Reply)}
      (hx : Fallible.flip x = .inr r) (h : (Fallible.loop body s).Run tr' r) (hp : L.Pairs tr tr') :
      Answers L body s tr x

theorem covers_rounds {body body' : σ → Fallible Op Reply ε (σ ⊕ α)}
    (h : ∀ s tr x, (body s).Run tr x → (∀ e ∈ tr, L.left e) → L.Answers body' s tr x) (s : σ) :
    L.Covers (Fallible.loop body s) (Fallible.loop body' s) := by
  intro tr r hr hleft
  induction Fallible.run_rounds hr with
  | last hbody hx =>
    cases h _ _ _ hbody hleft with
    | turn h' hp => exact ⟨_,Fallible.run_last h' hx,hp⟩
    | rest hx' h' hp =>
      obtain rfl := Sum.inr.inj (hx.symm.trans hx')
      exact ⟨_,h',hp⟩
  | again hbody hrest ih =>
    obtain ⟨hleft₁,hleft₂⟩ := List.forall_mem_append.mp hleft
    obtain ⟨tr₂',hr',hp₂⟩ := ih (Fallible.rounds_run hrest) hleft₂
    cases h _ _ _ hbody hleft₁ with
    | turn h' hp => exact ⟨_,Fallible.run_again h' hr',pairs_append hp hp₂⟩
    | rest hx' _ _ => cases hx'

theorem covers_loop {body body' : σ → Fallible Op Reply ε (σ ⊕ α)}
    (h : ∀ s, L.Covers (body s) (body' s)) (s : σ) :
    L.Covers (Fallible.loop body s) (Fallible.loop body' s) := by
  refine covers_rounds ?_ s
  intro s tr x hr hleft
  obtain ⟨tr',hr',hp⟩ := h s tr x hr hleft
  exact .turn hr' hp

end Likening

end Interaction
