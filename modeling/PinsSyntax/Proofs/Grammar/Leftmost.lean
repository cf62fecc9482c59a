import Mathlib.Tactic.Lemma
import PinsSyntax.Grammar.Derivation

/-!
# Leftmost derivations

`Form.Yields form ps kinds` says that the productions `ps`, applied one after another at the leftmost
nonterminal, turn `form` into `kinds`. It is the inductive reading of `Form.expandAll`
(`Form.yields_iff_expandAll`), and it splits and joins along the form (`Form.yields_append_iff`).
Since a step anywhere in a form can be put in the place it has in leftmost order
(`Form.Yields.of_step`), whatever can be derived has a leftmost derivation
(`Form.derives_iff_exists_yields`).
-/

namespace PinsSyntax.Form

/-- A leftmost derivation of a sequence of kinds from a form, told by its productions. -/
inductive Yields : Form → List Production → List Kind → Prop where
  | nil :
    Yields [] [] []
  | token {k form ps kinds} :
    Yields form ps kinds →
    Yields (.token k :: form) ps (k :: kinds)
  | rule {p form ps kinds} :
    Yields (p.rhs ++ form) ps kinds →
    Yields (.rule p.lhs :: form) (p :: ps) kinds

variable {form before after : Form} {ps : List Production} {kinds : List Kind}

/-- Kinds yield themselves without any production. -/
lemma yields_ofKinds (kinds : List Kind) : Yields (ofKinds kinds) [] kinds := by
  induction kinds with
  | nil => exact .nil
  | cons k kinds ih => exact .token ih

/-- The first production is applied first. -/
lemma expandAll_cons (form : Form) (p : Production) (ps : List Production) :
    expandAll form (p :: ps) = (expand p form).bind (expandAll · ps) := rfl

/-- Productions leave the token in front of a form alone. -/
lemma expandAll_token (k : Kind) (form : Form) (ps : List Production) :
    expandAll (.token k :: form) ps = (expandAll form ps).map (.token k :: ·) := by
  induction ps generalizing form with
  | nil => rfl
  | cons p ps ih =>
    rw [expandAll_cons, expandAll_cons, expand]
    cases expand p form with
    | none => rfl
    | some form' => exact ih form'

/-- A leftmost derivation is carried out by `expandAll`. -/
lemma Yields.expandAll_eq (h : Yields form ps kinds) : expandAll form ps = some (ofKinds kinds) := by
  induction h with
  | nil => rfl
  | @token k form ps kinds _ ih =>
    rw [expandAll_token, ih]
    rfl
  | @rule p form ps kinds _ ih =>
    rw [expandAll_cons, expand, if_pos rfl]
    exact ih

/-- If `expandAll` ends in kinds, it has carried out a leftmost derivation. -/
lemma yields_of_expandAll (h : expandAll form ps = some (ofKinds kinds)) :
    Yields form ps kinds := by
  induction ps generalizing form kinds with
  | nil =>
    cases h
    exact yields_ofKinds kinds
  | cons p ps ihp =>
    -- The tokens in front of the form are dropped until the production meets its nonterminal.
    induction form generalizing kinds with
    | nil => cases h
    | cons s form ihf =>
      cases s with
      | token k =>
        rw [expandAll_token] at h
        obtain ⟨form', hf, he⟩ := Option.map_eq_some_iff.1 h
        cases kinds with
        | nil => cases he
        | cons k' kinds =>
          obtain ⟨hk, rfl⟩ := List.cons_eq_cons.1 he
          cases hk
          exact .token (ihf hf)
      | rule n =>
        obtain ⟨form', hf, he⟩ := Option.bind_eq_some_iff.1 h
        simp only [expand, Option.ite_none_right_eq_some, Option.some.injEq] at hf
        obtain ⟨rfl, rfl⟩ := hf
        exact .rule (ihp he)

/-- Leftmost derivations are the lists of productions that `expandAll` can carry out. -/
lemma yields_iff_expandAll : Yields form ps kinds ↔ expandAll form ps = some (ofKinds kinds) :=
  ⟨Yields.expandAll_eq, yields_of_expandAll⟩

/-- Leftmost derivations of two forms make one of both forms in a row. -/
lemma Yields.append {qs : List Production} {kinds' : List Kind} (h : Yields form ps kinds)
    (h' : Yields after qs kinds') : Yields (form ++ after) (ps ++ qs) (kinds ++ kinds') := by
  induction h with
  | nil => exact h'
  | token _ ih => exact .token ih
  | @rule p form ps kinds _ ih =>
    rw [List.append_assoc] at ih
    exact .rule ih

/-- A leftmost derivation of two forms in a row is made of one of each. -/
lemma yields_append_iff :
    Yields (before ++ after) ps kinds ↔ ∃ ps₁ ps₂ kinds₁ kinds₂, ps = ps₁ ++ ps₂ ∧
      kinds = kinds₁ ++ kinds₂ ∧ Yields before ps₁ kinds₁ ∧ Yields after ps₂ kinds₂ := by
  constructor
  · intro h
    generalize e : before ++ after = form at h
    induction h generalizing before with
    | nil =>
      obtain ⟨rfl, rfl⟩ := List.append_eq_nil_iff.1 e
      exact ⟨[], [], [], [], rfl, rfl, .nil, .nil⟩
    | @token k form ps kinds h ih =>
      cases before with
      | nil =>
        cases e
        exact ⟨[], ps, [], k :: kinds, rfl, rfl, .nil, .token h⟩
      | cons s before =>
        obtain ⟨rfl, rfl⟩ := List.cons_eq_cons.1 e
        obtain ⟨ps₁, ps₂, kinds₁, kinds₂, rfl, rfl, h₁, h₂⟩ := ih rfl
        exact ⟨ps₁, ps₂, k :: kinds₁, kinds₂, rfl, rfl, .token h₁, h₂⟩
    | @rule p form ps kinds h ih =>
      cases before with
      | nil =>
        cases e
        exact ⟨[], p :: ps, [], kinds, rfl, rfl, .nil, .rule h⟩
      | cons s before =>
        obtain ⟨rfl, rfl⟩ := List.cons_eq_cons.1 e
        obtain ⟨ps₁, ps₂, kinds₁, kinds₂, rfl, rfl, h₁, h₂⟩ := ih (List.append_assoc ..)
        exact ⟨p :: ps₁, ps₂, kinds₁, kinds₂, rfl, rfl, .rule h₁, h₂⟩
  · rintro ⟨ps₁, ps₂, kinds₁, kinds₂, rfl, rfl, h₁, h₂⟩
    exact h₁.append h₂

/-- A step anywhere in a form goes to its place in a leftmost derivation. -/
lemma Yields.of_step {a b : Form} (st : Step a b) (h : Yields b ps kinds) :
    ∃ qs, Yields a qs kinds := by
  cases st with
  | replace before p after =>
    rw [List.append_assoc] at h
    obtain ⟨ps₁, ps₂, kinds₁, kinds₂, rfl, rfl, h₁, h₂⟩ := yields_append_iff.1 h
    exact ⟨ps₁ ++ p :: ps₂, h₁.append (.rule h₂)⟩

/-- A derivation in any order goes to its place in a leftmost derivation. -/
lemma Yields.of_derives {a b : Form} (d : Derives a b) (h : Yields b ps kinds) :
    ∃ qs, Yields a qs kinds := by
  induction d generalizing ps with
  | refl => exact ⟨ps, h⟩
  | tail _ st ih =>
    obtain ⟨qs, h⟩ := h.of_step st
    exact ih h

/-- Whatever can be derived has a leftmost derivation, and the other way round. -/
lemma derives_iff_exists_yields : Derives form (ofKinds kinds) ↔ ∃ ps, Yields form ps kinds := by
  constructor
  · intro d
    exact (yields_ofKinds kinds).of_derives d
  · rintro ⟨ps, h⟩
    exact derives_of_expandAll h.expandAll_eq

end PinsSyntax.Form
