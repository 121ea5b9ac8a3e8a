import Mathlib.Logic.Basic

/-!
# Programs with a failure in them

A program works on a state that stays as it is when the program raises. One of its operations may be made to fail, and
it is told by its name which one. What comes after a failure, like a rollback, does not fail any more.

A program is reasoned about by what has to hold before it, for something to hold when it returns and something else
when it raises.
-/

namespace AnboxReboxed.Lib

/-- The operation that is to fail and the state before give the state after, with an exception or a result. -/
def Fallible (ε ω σ α : Type) : Type := Option ω → σ → Except (ε × σ) (α × Option ω × σ)

namespace Fallible

variable {ε ω σ α β : Type}

/-- One program after another. -/
def andThen (m : Fallible ε ω σ α) (k : α → Fallible ε ω σ β) : Fallible ε ω σ β := fun fault s =>
  match m fault s with
  | .error e => .error e
  | .ok (a, fault, s) => k a fault s

instance : Monad (Fallible ε ω σ) where
  pure a fault s := .ok (a, fault, s)
  bind := andThen

/-- The state, and what is asked about it. -/
def read (f : σ → α) : Fallible ε ω σ α := fun fault s => .ok (f s, fault, s)

def raise (e : ε) : Fallible ε ω σ α := fun _ s => .error (e, s)

def raiseIf (c : Prop) [Decidable c] (e : ε) : Fallible ε ω σ Unit := if c then raise e else pure ()

variable [DecidableEq ω]

/-- An operation that raises when it fails, and leaves something half done then. -/
def torn (e : ε) (o : ω) (half whole : σ → σ) : Fallible ε ω σ Unit := fun fault s =>
  if fault = some o then .error (e, half s) else .ok ((), fault, whole s)

/-- An operation that does nothing when it fails. -/
def op (e : ε) (o : ω) (f : σ → σ) : Fallible ε ω σ Unit := torn e o (fun s => s) f

/-- An operation whose failure is ignored. -/
def ignoring (o : ω) (f : σ → σ) : Fallible ε ω σ Unit := fun fault s =>
  if fault = some o then .ok ((), none, s) else .ok ((), fault, f s)

omit [DecidableEq ω]

/-- When the program raises, it is rolled back and raises still. -/
def attempt (m : Fallible ε ω σ α) (rollback : Fallible ε ω σ Unit) : Fallible ε ω σ α := fun fault s =>
  match m fault s with
  | .error (e, s) =>
    match rollback none s with
    | .error r => .error r
    | .ok (_, _, s) => .error (e, s)
  | .ok r => .ok r

/-- When the program raises, it is for the handler to go on. -/
def rescue (m : Fallible ε ω σ α) (handler : ε → Fallible ε ω σ α) : Fallible ε ω σ α := fun fault s =>
  match m fault s with
  | .error (e, s) => handler e none s
  | .ok r => .ok r

/-- The second program is run after the first one, either way. -/
def ensure (m : Fallible ε ω σ α) (last : Fallible ε ω σ β) : Fallible ε ω σ (α × β) := fun fault s =>
  match m fault s with
  | .error (e, s) =>
    match last none s with
    | .error r => .error r
    | .ok (_, _, s) => .error (e, s)
  | .ok (a, fault, s) =>
    match last fault s with
    | .error r => .error r
    | .ok (b, fault, s) => .ok ((a, b), fault, s)

def modify (f : σ → σ) : Fallible ε ω σ Unit := fun fault s => .ok ((), fault, f s)

/-- A program on a part of the state. -/
def zoom {τ : Type} (get : σ → τ) (set : τ → σ → σ) (m : Fallible ε ω τ α) : Fallible ε ω σ α := fun fault s =>
  match m fault (get s) with
  | .error (e, t) => .error (e, set t s)
  | .ok (a, fault, t) => .ok (a, fault, set t s)

def ofExcept : Except ε α → Fallible ε ω σ α
  | .error e => raise e
  | .ok a => pure a

/-- The state at the end, either way. -/
def final (m : Fallible ε ω σ α) (fault : Option ω) (s : σ) : σ :=
  match m fault s with
  | .error (_, s) => s
  | .ok (_, _, s) => s

/-- When the program returns, `Q` holds, and when it raises, `E` does. -/
def wp (m : Fallible ε ω σ α) (Q : α → Option ω → σ → Prop) (E : ε → σ → Prop) (fault : Option ω) (s : σ) : Prop :=
  match m fault s with
  | .error (e, s) => E e s
  | .ok (a, fault, s) => Q a fault s

variable {Q : α → Option ω → σ → Prop} {E : ε → σ → Prop} {fault : Option ω} {s : σ}

@[simp] theorem wp_pure (a : α) : wp (pure a : Fallible ε ω σ α) Q E fault s ↔ Q a fault s := Iff.rfl

@[simp] theorem wp_bind (m : Fallible ε ω σ β) (k : β → Fallible ε ω σ α) :
    wp (m >>= k) Q E fault s ↔ wp m (fun b => wp (k b) Q E) E fault s := by
  show wp (andThen m k) Q E fault s ↔ _
  unfold wp andThen
  cases m fault s <;> rfl

@[simp] theorem wp_read (f : σ → α) : wp (read f : Fallible ε ω σ α) Q E fault s ↔ Q (f s) fault s := Iff.rfl

@[simp] theorem wp_raise (e : ε) : wp (raise e : Fallible ε ω σ α) Q E fault s ↔ E e s := Iff.rfl

@[simp] theorem wp_torn [DecidableEq ω] {Q : Unit → Option ω → σ → Prop} (e : ε) (o : ω) (half whole : σ → σ) :
    wp (torn e o half whole) Q E fault s ↔
      (fault = some o → E e (half s)) ∧ (fault ≠ some o → Q () fault (whole s)) := by
  unfold wp torn
  by_cases h : fault = some o
  · rw [if_pos h]
    exact ⟨fun hE => ⟨fun _ => hE, fun hne => absurd h hne⟩, fun hE => hE.1 h⟩
  · rw [if_neg h]
    exact ⟨fun hQ => ⟨fun heq => absurd heq h, fun _ => hQ⟩, fun hQ => hQ.2 h⟩

@[simp] theorem wp_op [DecidableEq ω] {Q : Unit → Option ω → σ → Prop} (e : ε) (o : ω) (f : σ → σ) :
    wp (op e o f) Q E fault s ↔ (fault = some o → E e s) ∧ (fault ≠ some o → Q () fault (f s)) := wp_torn ..

@[simp] theorem wp_ignoring [DecidableEq ω] {Q : Unit → Option ω → σ → Prop} (o : ω) (f : σ → σ) :
    wp (ignoring o f) Q E fault s ↔ (fault = some o → Q () none s) ∧ (fault ≠ some o → Q () fault (f s)) := by
  unfold wp ignoring
  by_cases h : fault = some o
  · rw [if_pos h]
    exact ⟨fun hQ => ⟨fun _ => hQ, fun hne => absurd h hne⟩, fun hQ => hQ.1 h⟩
  · rw [if_neg h]
    exact ⟨fun hQ => ⟨fun heq => absurd heq h, fun _ => hQ⟩, fun hQ => hQ.2 h⟩

@[simp] theorem wp_attempt (m : Fallible ε ω σ α) (rollback : Fallible ε ω σ Unit) :
    wp (attempt m rollback) Q E fault s ↔ wp m Q (fun e => wp rollback (fun _ _ => E e) E none) fault s := by
  unfold wp attempt
  cases m fault s with
  | error e =>
    dsimp only
    cases rollback none e.2 <;> rfl
  | ok r => rfl

@[simp] theorem wp_rescue (m : Fallible ε ω σ α) (handler : ε → Fallible ε ω σ α) :
    wp (rescue m handler) Q E fault s ↔ wp m Q (fun e => wp (handler e) Q E none) fault s := by
  unfold wp rescue
  cases m fault s <;> rfl

@[simp] theorem wp_ensure {Q : α × β → Option ω → σ → Prop} (m : Fallible ε ω σ α) (last : Fallible ε ω σ β) :
    wp (ensure m last) Q E fault s ↔
      wp m (fun a => wp last (fun b => Q (a, b)) E) (fun e => wp last (fun _ _ => E e) E none) fault s := by
  unfold wp ensure
  cases m fault s with
  | error e =>
    dsimp only
    cases last none e.2 <;> rfl
  | ok r =>
    dsimp only
    cases last r.2.1 r.2.2 <;> rfl

@[simp] theorem wp_modify {Q : Unit → Option ω → σ → Prop} (f : σ → σ) :
    wp (modify f : Fallible ε ω σ Unit) Q E fault s ↔ Q () fault (f s) := Iff.rfl

@[simp] theorem wp_zoom {τ : Type} (get : σ → τ) (set : τ → σ → σ) (m : Fallible ε ω τ α) :
    wp (zoom get set m) Q E fault s ↔
      wp m (fun a fault t => Q a fault (set t s)) (fun e t => E e (set t s)) fault (get s) := by
  unfold wp zoom
  cases m fault (get s) <;> rfl

theorem wp_ofExcept {r : Except ε α} (hE : ∀ e, r = .error e → E e s) (hQ : ∀ a, r = .ok a → Q a fault s) :
    wp (ofExcept r) Q E fault s := by
  cases r with
  | error e => exact hE e rfl
  | ok a => exact hQ a rfl

@[simp] theorem wp_ite {c : Prop} [Decidable c] (m n : Fallible ε ω σ α) :
    wp (if c then m else n) Q E fault s ↔ (c → wp m Q E fault s) ∧ (¬c → wp n Q E fault s) := by
  by_cases h : c
  · rw [if_pos h]
    exact ⟨fun hm => ⟨fun _ => hm, fun hc => absurd h hc⟩, fun hm => hm.1 h⟩
  · rw [if_neg h]
    exact ⟨fun hn => ⟨fun hc => absurd hc h, fun _ => hn⟩, fun hn => hn.2 h⟩

theorem wp_op_bind [DecidableEq ω] {e : ε} {o : ω} {f : σ → σ} {k : Unit → Fallible ε ω σ α}
    (hE : fault = some o → E e s) (hQ : fault ≠ some o → wp (k ()) Q E fault (f s)) :
    wp (op e o f >>= k) Q E fault s := by
  rw [wp_bind, wp_op]
  exact ⟨hE, hQ⟩

theorem wp_raiseIf_bind {c : Prop} [Decidable c] {e : ε} {k : Unit → Fallible ε ω σ α} (hE : c → E e s)
    (hQ : ¬c → wp (k ()) Q E fault s) : wp (raiseIf c e >>= k) Q E fault s := by
  rw [wp_bind, raiseIf, wp_ite]
  exact ⟨hE, hQ⟩

theorem wp_mono {m : Fallible ε ω σ α} {Q' : α → Option ω → σ → Prop} {E' : ε → σ → Prop} (h : wp m Q E fault s)
    (hQ : ∀ a fault s, Q a fault s → Q' a fault s) (hE : ∀ e s, E e s → E' e s) : wp m Q' E' fault s := by
  unfold wp at h ⊢
  cases hm : m fault s with
  | error e =>
    rw [hm] at h
    exact hE _ _ h
  | ok r =>
    rw [hm] at h
    exact hQ _ _ _ h

theorem wp_error {m : Fallible ε ω σ α} {e : ε} {s' : σ} (h : wp m Q E fault s) (hm : m fault s = .error (e, s')) :
    E e s' := by
  unfold wp at h
  rw [hm] at h
  exact h

theorem wp_ok {m : Fallible ε ω σ α} {a : α} {fault' : Option ω} {s' : σ} (h : wp m Q E fault s)
    (hm : m fault s = .ok (a, fault', s')) : Q a fault' s' := by
  unfold wp at h
  rw [hm] at h
  exact h

/-- What holds either way holds of the state at the end. -/
theorem wp_final {m : Fallible ε ω σ α} {P : σ → Prop} (h : wp m (fun _ _ => P) (fun _ => P) fault s) :
    P (m.final fault s) := by
  unfold wp at h
  unfold final
  cases hm : m fault s with
  | error e =>
    rw [hm] at h
    exact h
  | ok r =>
    rw [hm] at h
    exact h

end Fallible

end AnboxReboxed.Lib

/-!
## Code that raises

What is known when a block has come through without an exception.
-/

namespace AnboxReboxed.Lib

variable {ε α β : Type} {x : Except ε α} {f : α → Except ε β} {a : α} {b : β}

theorem of_bind_eq_ok (h : x >>= f = .ok b) : ∃ a, x = .ok a ∧ f a = .ok b := by
  cases x with
  | error e => cases h
  | ok a => exact ⟨a, rfl, h⟩

theorem bind_eq_of_ok (h : x = .ok a) : x >>= f = f a := by
  rw [h]
  rfl

/-- A check in a block was passed. -/
theorem of_unless_eq_ok {c : Prop} [Decidable c] {e : ε} {f : Unit → Except ε β}
    (h : (if c then throw e >>= f else f ()) = .ok b) : ¬c ∧ f () = .ok b := by
  by_cases hc : c
  · rw [if_pos hc] at h
    cases h
  · rw [if_neg hc] at h
    exact ⟨hc, h⟩

theorem unless_eq_of_not {c : Prop} [Decidable c] {e : ε} {f : Unit → Except ε β} (hc : ¬c) :
    (if c then throw e >>= f else f ()) = f () := if_neg hc

/-- The same where the check is all there is to it. -/
theorem of_ite_error_eq_ok {c : Prop} [Decidable c] {e : ε} (h : (if c then .error e else x) = .ok a) :
    ¬c ∧ x = .ok a := by
  by_cases hc : c
  · rw [if_pos hc] at h
    cases h
  · rw [if_neg hc] at h
    exact ⟨hc, h⟩

end AnboxReboxed.Lib
