import VclRs.Interaction.Runs

namespace Interaction

structure Veil (Op : Type) (Reply : Op → Type) where
  rely : Event Op Reply → Prop
  hides : Event Op Reply → Bool

variable {Op : Type} {Reply : Op → Type} {α β γ δ ε ι κ : Type}

def Veil.seen (V : Veil Op Reply) (tr : List (Event Op Reply)) : List (Event Op Reply) :=
  tr.filter (fun e => !V.hides e)

def Veil.Mimics (V : Veil Op Reply) (p : Prog Op Reply α) (q : Prog Op Reply β)
    (R : α → β → Prop) : Prop :=
  ∀ tr a, p.Run tr a → (∀ e ∈ tr, V.rely e) → ∃ b, q.Run (V.seen tr) b ∧ R a b

namespace Veil

variable {V : Veil Op Reply}

theorem seen_append (tr tr' : List (Event Op Reply)) : V.seen (tr ++ tr') = V.seen tr ++ V.seen tr' :=
  List.filter_append ..

theorem seen_cons_hidden {e : Event Op Reply} (h : V.hides e = true) (tr : List (Event Op Reply)) :
    V.seen (e :: tr) = V.seen tr := by
  simp [seen,h]

theorem seen_cons_shown {e : Event Op Reply} (h : V.hides e = false) (tr : List (Event Op Reply)) :
    V.seen (e :: tr) = e :: V.seen tr := by
  simp [seen,h]

theorem seen_shown {tr : List (Event Op Reply)} (h : ∀ e ∈ tr, V.hides e = false) : V.seen tr = tr := by
  rw [seen,List.filter_eq_self]
  intro e he
  rw [h e he]
  rfl

section Programs

variable {p : Prog Op Reply α} {q : Prog Op Reply β} {R : α → β → Prop}

theorem mimics_ret {a : α} {b : β} (h : R a b) : V.Mimics (.ret a) (.ret b) R := by
  rintro tr a ⟨⟩ -
  exact ⟨b,.ret b,h⟩

theorem mimics_call {o : Op} {k : Reply o → Prog Op Reply α} {k' : Reply o → Prog Op Reply β}
    (hshown : ∀ r, V.hides ⟨o,r⟩ = false)
    (h : ∀ r, V.rely ⟨o,r⟩ → V.Mimics (k r) (k' r) R) : V.Mimics (.call o k) (.call o k') R := by
  intro tr a hr hrel
  cases hr with
  | call r hr =>
    obtain ⟨hhead,htail⟩ := List.forall_mem_cons.mp hrel
    obtain ⟨b,hb,hR⟩ := h r hhead _ a hr htail
    refine ⟨b,?_,hR⟩
    rw [seen_cons_shown (hshown r)]
    exact .call r hb

theorem mimics_bind {f : α → Prog Op Reply γ} {g : β → Prog Op Reply δ} {S : γ → δ → Prop}
    (h : V.Mimics p q R) (hf : ∀ a b, R a b → V.Mimics (f a) (g b) S) :
    V.Mimics (p.bind f) (q.bind g) S := by
  intro tr c hr hrel
  obtain ⟨tr₁,tr₂,a,rfl,hp,hc⟩ := Prog.run_bind_inv hr
  obtain ⟨hrel₁,hrel₂⟩ := List.forall_mem_append.mp hrel
  obtain ⟨b,hq,hR⟩ := h tr₁ a hp hrel₁
  obtain ⟨d,hd,hS⟩ := hf a b hR tr₂ c hc hrel₂
  refine ⟨d,?_,hS⟩
  rw [seen_append]
  exact Prog.run_bind hq hd

theorem mimics_self {P : Op → Prop} (hP : ∀ e, P e.op → V.hides e = false) {p : Prog Op Reply α}
    (h : p.Calls P) : V.Mimics p p Eq := by
  intro tr a hr _
  refine ⟨a,?_,rfl⟩
  rw [seen_shown (fun e he => hP e (Prog.calls_run h hr e he))]
  exact hr

inductive Turned (I : ι → κ → Prop) (R : Except ε α → Except ε β → Prop) :
    Except ε (ι ⊕ α) → Except ε (κ ⊕ β) → Prop
  | again {i : ι} {j : κ} (h : I i j) : Turned I R (.ok (.inl i)) (.ok (.inl j))
  | done {a : α} {b : β} (h : R (.ok a) (.ok b)) : Turned I R (.ok (.inr a)) (.ok (.inr b))
  | failed {e e' : ε} (h : R (.error e) (.error e')) : Turned I R (.error e) (.error e')

theorem mimics_loop {body : ι → Fallible Op Reply ε (ι ⊕ α)} {body' : κ → Fallible Op Reply ε (κ ⊕ β)}
    {R : Except ε α → Except ε β → Prop} (I : ι → κ → Prop)
    (h : ∀ i j, I i j → ∀ tr x, (body i).Run tr x → (∀ e ∈ tr, V.rely e) →
      (∃ i', x = .ok (.inl i') ∧ V.seen tr = [] ∧ I i' j) ∨
        ∃ y, (body' j).Run (V.seen tr) y ∧ Turned I R x y) {i : ι} {j : κ} (hij : I i j) :
    V.Mimics (Fallible.loop body i).prog (Fallible.loop body' j).prog R := by
  intro tr r hr hrel
  cases hr with
  | unroll n hr =>
    induction n generalizing i j tr with
    | zero => cases hr
    | succ n ih =>
      obtain ⟨tr₁,tr₂,x,rfl,hx,hrest⟩ := Prog.run_bind_inv hr
      obtain ⟨tr₁,tr₃,x,rfl,hbody,hflip⟩ := Prog.run_bind_inv hx
      cases hflip with
      | ret =>
        rw [List.append_nil] at hrel ⊢
        obtain ⟨hrel₁,hrel₂⟩ := List.forall_mem_append.mp hrel
        rw [seen_append]
        rcases h i j hij tr₁ x hbody hrel₁ with ⟨i',rfl,hseen,hI⟩ | ⟨y,hy,hturn⟩
        · rw [hseen]
          exact ih hI _ hrel₂ hrest
        · cases hturn with
          | again hI =>
            obtain ⟨b,hb,hR⟩ := ih hI _ hrel₂ hrest
            exact ⟨b,Fallible.run_again hy hb,hR⟩
          | done hR =>
            cases hrest with
            | ret =>
              refine ⟨_,?_,hR⟩
              rw [show V.seen [] = [] from rfl,List.append_nil]
              exact Fallible.run_last hy rfl
          | failed hR =>
            cases hrest with
            | ret =>
              refine ⟨_,?_,hR⟩
              rw [show V.seen [] = [] from rfl,List.append_nil]
              exact Fallible.run_last hy rfl

end Programs

section Fallibles

variable {x y : Fallible Op Reply ε α} {R : Except ε α → Except ε α → Prop}

theorem mimics_then {f g : α → Fallible Op Reply ε β} {S : Except ε β → Except ε β → Prop}
    (h : V.Mimics x.prog y.prog Eq) (hf : ∀ a, V.Mimics (f a).prog (g a).prog S)
    (hS : ∀ e, S (.error e) (.error e)) : V.Mimics (x >>= f).prog (y >>= g).prog S := by
  refine mimics_bind h ?_
  rintro r _ rfl
  cases r with
  | ok a => exact hf a
  | error e => exact mimics_ret (hS e)

theorem ensuring_prog {c : Fallible Op Reply ε Unit} : (x.ensuring c).prog =
    x.prog.bind (fun r => c.prog.bind (fun d => .ret (d.bind (fun _ => r)))) := by
  rw [Fallible.ensuring,Fallible.handle]
  refine congrArg x.prog.bind ?_
  funext r
  cases r with
  | ok a =>
    refine congrArg c.prog.bind ?_
    funext d
    cases d with
    | ok _ => rfl
    | error e => rfl
  | error e =>
    refine congrArg c.prog.bind ?_
    funext d
    cases d with
    | ok _ => rfl
    | error e => rfl

theorem mimics_ensuring {c : Fallible Op Reply ε Unit} (h : V.Mimics x.prog y.prog R)
    (hc : V.Mimics c.prog c.prog Eq) (hR : ∀ e, R (.error e) (.error e)) :
    V.Mimics (x.ensuring c).prog (y.ensuring c).prog R := by
  rw [ensuring_prog,ensuring_prog]
  refine mimics_bind h ?_
  intro r r' hr
  refine mimics_bind hc ?_
  rintro d _ rfl
  cases d with
  | ok _ => exact mimics_ret hr
  | error e => exact mimics_ret (hR e)

theorem onFail_bind {c : Fallible Op Reply ε Unit} {f : α → Fallible Op Reply ε β} :
    (x.onFail c >>= fun a => (f a).ensuring c) = (x >>= f).ensuring c := by
  refine congrArg Fallible.mk ?_
  change (x.prog.bind _).bind _ = (x.prog.bind _).bind _
  rw [Prog.bind_assoc,Prog.bind_assoc]
  refine congrArg x.prog.bind ?_
  funext r
  cases r with
  | ok a => rfl
  | error e =>
    change (c.prog.bind _).bind _ = c.prog.bind _
    rw [Prog.bind_assoc]
    refine congrArg c.prog.bind ?_
    funext d
    cases d with
    | ok _ => rfl
    | error e => rfl

theorem onFail_retain {c : Fallible Op Reply ε Unit} {b : β} {f : β → Fallible Op Reply ε γ} :
    ((x >>= fun _ => pure b).onFail c >>= f) = x.onFail c >>= fun _ => f b := by
  refine congrArg Fallible.mk ?_
  change ((x.prog.bind _).bind _).bind _ = (x.prog.bind _).bind _
  rw [Prog.bind_assoc,Prog.bind_assoc,Prog.bind_assoc]
  refine congrArg x.prog.bind ?_
  funext r
  cases r with
  | ok a => rfl
  | error e =>
    change (c.prog.bind _).bind _ = (c.prog.bind _).bind _
    rw [Prog.bind_assoc,Prog.bind_assoc]
    refine congrArg c.prog.bind ?_
    funext d
    cases d with
    | ok _ => rfl
    | error e => rfl

end Fallibles

end Veil

end Interaction
