import PinsSyntax.Recognizer.Basic

/-!
# What the steps of a recognizer do

One equation for each step of a recognizer, which says what it makes of its progress. A recognizer
is a function of its surroundings and its progress, and these equations run it.
-/

namespace PinsSyntax.Recognizer

variable {σ α β : Type} (env : Surroundings σ) (s : Progress σ)

@[simp] theorem pure_run (a : α) : (pure a : Recognizer σ α) env s = .ok a s := rfl

@[simp] theorem bind_run (x : Recognizer σ α) (f : α → Recognizer σ β) :
    (x >>= f) env s =
      match x env s with
      | .ok a s' => f a env s'
      | .error e s' => .error e s' := by
  show EStateM.bind (x env) (fun a => f a env) s = _
  unfold EStateM.bind
  cases x env s <;> rfl

@[simp] theorem tell_run (e : Event) :
    (tell e : Recognizer σ Unit) env s = .ok () ⟨s.cursor, env.observe e s.observed⟩ := rfl

@[simp] theorem apply_run (p : Production) :
    (apply p : Recognizer σ Unit) env s = .ok () ⟨s.cursor, env.observe (.applied p) s.observed⟩ :=
  rfl

@[simp] theorem peek_run : (peek : Recognizer σ Token) env s = .ok s.cursor.peek s := rfl

@[simp] theorem take_run :
    (take : Recognizer σ Unit) env s =
      .ok () ⟨s.cursor.advance, env.observe (.taken s.cursor.peek) s.observed⟩ := rfl

@[simp] theorem unexpected_run (e : Expectation) :
    (unexpected e : Recognizer σ α) env s = .error (.unexpected s.cursor.peek e) s := rfl

theorem expect_run (k : Kind) :
    (expect k : Recognizer σ Unit) env s =
      if s.cursor.peek.kind = k then (take : Recognizer σ Unit) env s
      else (unexpected (.token k) : Recognizer σ Unit) env s := by
  unfold expect
  by_cases h : s.cursor.peek.kind = k <;> simp [h]

theorem loop_run (stage : Stage) (round : Recognizer σ Bool) :
    loop stage round env s = rounds stage round env.bound env s := rfl

end PinsSyntax.Recognizer
