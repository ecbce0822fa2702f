import EndCloseRelay.Interaction.Program

/-!
# Two programs side by side

A `Coupling` says which calls of two programs pair and which answers the two may
then get.  Two programs are coupled when they make paired calls for as long as
they get such answers, and end together; the rules for methods are stated for
those that leave the same state behind and throw the same errors.
-/

namespace Interaction

/-- Which calls pair after a history of the first program's exchanges, latest
first, and which answers go together. -/
structure Coupling (Op : Type) (Ans : Op → Type) where
  pairs : List (Exchange Ans) → Op → Op → Prop
  agree : List (Exchange Ans) → (op op' : Op) → Ans op → Ans op' → Prop

namespace Program

variable {Op : Type} {Ans : Op → Type} {α α' β β' : Type} {C : Coupling Op Ans}

/-- From a history of the first, the programs make paired calls while they get
answers that agree, and end together with the postcondition. -/
def Coupled (C : Coupling Op Ans) :
    Program Op Ans α → Program Op Ans β → List (Exchange Ans) →
      (List (Exchange Ans) → α → β → Prop) → Prop
  | pure a, pure b, history, post => post history a b
  | call op next, call op' next', history, post => C.pairs history op op' ∧
      ∀ answer answer', C.agree history op op' answer answer' →
        (next answer).Coupled C (next' answer') (⟨op, answer⟩ :: history) post
  | _, _, _, _ => False

theorem Coupled.mono {p : Program Op Ans α} {q : Program Op Ans β} {history : List (Exchange Ans)}
    {post post' : List (Exchange Ans) → α → β → Prop} (coupled : p.Coupled C q history post)
    (weaker : ∀ history a b, post history a b → post' history a b) :
    p.Coupled C q history post' := by
  induction p generalizing q history with
  | pure a =>
    cases q with
    | pure b => exact weaker history a b coupled
    | call op' next' => exact coupled.elim
  | call op next ih =>
    cases q with
    | pure b => exact coupled.elim
    | call op' next' =>
      obtain ⟨paired, onward⟩ := coupled
      exact ⟨paired, fun answer answer' agree => ih answer (onward answer answer' agree)⟩

theorem Coupled.bind {p : Program Op Ans α} {q : Program Op Ans β} {f : α → Program Op Ans α'}
    {g : β → Program Op Ans β'} {history : List (Exchange Ans)}
    {post : List (Exchange Ans) → α' → β' → Prop}
    (coupled : p.Coupled C q history fun history a b => (f a).Coupled C (g b) history post) :
    (p.bind f).Coupled C (q.bind g) history post := by
  induction p generalizing q history with
  | pure a =>
    cases q with
    | pure b => exact coupled
    | call op' next' => exact coupled.elim
  | call op next ih =>
    cases q with
    | pure b => exact coupled.elim
    | call op' next' =>
      obtain ⟨paired, onward⟩ := coupled
      exact ⟨paired, fun answer answer' agree => ih answer (onward answer answer' agree)⟩

end Program

namespace Method

variable {Op : Type} {Ans : Op → Type} {σ ε α α' β β' : Type} {C : Coupling Op Ans}

/-- The outcomes are related values, or one error. -/
def Agrees (R : α → β → Prop) : Except ε α → Except ε β → Prop
  | .ok a, .ok b => R a b
  | .error e, .error e' => e = e'
  | _, _ => False

theorem agrees_self (r : Except ε α) : Agrees Eq r r := by
  cases r <;> rfl

theorem Agrees.eq {r r' : Except ε α} (agrees : Agrees Eq r r') : r = r' := by
  cases r <;> cases r'
  · exact congrArg Except.error agrees
  · exact agrees.elim
  · exact agrees.elim
  · exact congrArg Except.ok agrees

/-- From any history and state the methods are coupled, leave the same state
behind, and end in related outcomes. -/
def Alike (C : Coupling Op Ans) (m : Method Op Ans σ ε α) (m' : Method Op Ans σ ε β)
    (R : α → β → Prop) : Prop :=
  ∀ history s, (m.start s).Coupled C (m'.start s) history fun _ out out' =>
    out.2 = out'.2 ∧ Agrees R out.1 out'.1

variable {R : α → β → Prop} {Q : α' → β' → Prop}

theorem Alike.pure {a : α} {b : β} (related : R a b) :
    Alike C (Pure.pure a : Method Op Ans σ ε α) (Pure.pure b) R := fun _ _ => ⟨rfl, related⟩

theorem Alike.throw (e : ε) :
    Alike C (MonadExcept.throw e : Method Op Ans σ ε α) (MonadExcept.throw e) R := fun _ _ => ⟨rfl, rfl⟩

theorem Alike.modify (f : σ → σ) :
    Alike C (modify f : Method Op Ans σ ε PUnit) (modify f) Eq := fun _ _ => ⟨rfl, rfl⟩

theorem Alike.get : Alike C (get : Method Op Ans σ ε σ) get Eq := fun _ _ => ⟨rfl, rfl⟩

theorem Alike.ofExcept {r : Except ε α} {r' : Except ε β} (related : Agrees R r r') :
    Alike C (ofExcept r : Method Op Ans σ ε α) (ofExcept r') R := by
  cases r with
  | error e =>
    cases r' with
    | error e' =>
      obtain rfl := related
      exact Alike.throw e
    | ok b => exact related.elim
  | ok a =>
    cases r' with
    | error e' => exact related.elim
    | ok b => exact Alike.pure related

theorem Alike.call {op op' : Op} {R : Ans op → Ans op' → Prop}
    (paired : ∀ history, C.pairs history op op')
    (related : ∀ history answer answer', C.agree history op op' answer answer' → R answer answer') :
    Alike C (call op : Method Op Ans σ ε (Ans op)) (call op') R := fun history _ =>
  ⟨paired history, fun answer answer' agree => ⟨rfl, related history answer answer' agree⟩⟩

theorem Alike.mono {m : Method Op Ans σ ε α} {m' : Method Op Ans σ ε β} {R' : α → β → Prop}
    (alike : Alike C m m' R) (weaker : ∀ a b, R a b → R' a b) : Alike C m m' R' := by
  intro history s
  refine (alike history s).mono fun _ out out' holds => ⟨holds.1, ?_⟩
  obtain ⟨-, holds⟩ := holds
  rcases out with ⟨r, t⟩
  rcases out' with ⟨r', t'⟩
  cases r <;> cases r'
  · exact holds
  · exact holds
  · exact holds
  · exact weaker _ _ holds

theorem Alike.bind {m : Method Op Ans σ ε α} {m' : Method Op Ans σ ε β}
    {f : α → Method Op Ans σ ε α'} {f' : β → Method Op Ans σ ε β'} (first : Alike C m m' R)
    (second : ∀ a b, R a b → Alike C (f a) (f' b) Q) : Alike C (m >>= f) (m' >>= f') Q := by
  intro history s
  rw [start_bind, start_bind]
  refine Program.Coupled.bind ((first history s).mono fun history out out' holds => ?_)
  rcases out with ⟨r, t⟩
  rcases out' with ⟨r', t'⟩
  obtain ⟨rfl, holds⟩ := holds
  cases r <;> cases r'
  · exact ⟨rfl, holds⟩
  · exact holds.elim
  · exact holds.elim
  · exact second _ _ holds history t

/-- Methods that return the same value, and then others on it. -/
theorem Alike.then {m m' : Method Op Ans σ ε α} {f : α → Method Op Ans σ ε α'}
    {f' : α → Method Op Ans σ ε β'} (first : Alike C m m' Eq)
    (second : ∀ a, Alike C (f a) (f' a) Q) : Alike C (m >>= f) (m' >>= f') Q := by
  refine first.bind fun a b same => ?_
  obtain rfl := same
  exact second a

/-- A call and then what becomes of its answers, where these depend on the history. -/
theorem coupled_call_bind {op op' : Op} {f : Ans op → Method Op Ans σ ε α}
    {f' : Ans op' → Method Op Ans σ ε β} {history : List (Exchange Ans)} {s : σ}
    {post : List (Exchange Ans) → Except ε α × σ → Except ε β × σ → Prop}
    (paired : C.pairs history op op')
    (onward : ∀ answer answer', C.agree history op op' answer answer' →
      ((f answer).start s).Coupled C ((f' answer').start s) (⟨op, answer⟩ :: history) post) :
    ((Method.call op >>= f : Method Op Ans σ ε α).start s).Coupled C
      ((Method.call op' >>= f' : Method Op Ans σ ε β).start s) history post :=
  ⟨paired, onward⟩

theorem Alike.tryCatch {m : Method Op Ans σ ε α} {m' : Method Op Ans σ ε β}
    {handler : ε → Method Op Ans σ ε α} {handler' : ε → Method Op Ans σ ε β}
    (body : Alike C m m' R) (handled : ∀ e, Alike C (handler e) (handler' e) R) :
    Alike C (MonadExcept.tryCatch m handler) (MonadExcept.tryCatch m' handler') R := by
  intro history s
  refine Program.Coupled.bind ((body history s).mono fun history out out' holds => ?_)
  rcases out with ⟨r, t⟩
  rcases out' with ⟨r', t'⟩
  obtain ⟨rfl, holds⟩ := holds
  cases r with
  | error e =>
    cases r' with
    | error e' =>
      obtain rfl := holds
      exact handled e history t
    | ok b => exact holds.elim
  | ok a =>
    cases r' with
    | error e' => exact holds.elim
    | ok b => exact ⟨rfl, holds⟩

theorem Alike.map {m : Method Op Ans σ ε α} {m' : Method Op Ans σ ε β} {f : α → α'} {f' : β → β'}
    (alike : Alike C m m' R) (related : ∀ a b, R a b → Q (f a) (f' b)) :
    Alike C (f <$> m) (f' <$> m') Q := by
  rw [map_eq_pure_bind, map_eq_pure_bind]
  exact alike.bind fun a b holds => Alike.pure (related a b holds)

theorem Alike.ensuring {m : Method Op Ans σ ε α} {m' : Method Op Ans σ ε β}
    {cleanup cleanup' : Method Op Ans σ ε PUnit} (body : Alike C m m' R)
    (clean : Alike C cleanup cleanup' Eq) :
    Alike C (ensuring m cleanup) (ensuring m' cleanup') R := by
  have caught : Alike C (MonadExcept.tryCatch (Except.ok <$> m) fun e => Pure.pure (Except.error e))
      (MonadExcept.tryCatch (Except.ok <$> m') fun e => Pure.pure (Except.error e))
      (Agrees R) :=
    Alike.tryCatch (body.map fun _ _ holds => holds) fun e => Alike.pure rfl
  refine caught.bind fun r r' holds => clean.bind fun _ _ _ => ?_
  cases r with
  | error e =>
    cases r' with
    | error e' =>
      obtain rfl := holds
      exact Alike.throw e
    | ok b => exact holds.elim
  | ok a =>
    cases r' with
    | error e' => exact holds.elim
    | ok b => exact Alike.pure holds

end Method

end Interaction
