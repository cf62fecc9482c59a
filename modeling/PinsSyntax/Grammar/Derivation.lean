import PinsSyntax.Grammar.Production

/-!
# Derivations

A sequence of symbols is a form. A step replaces one nonterminal of a form by what a production puts
in its place, and a form is derived from another one by any number of steps. Steps at the leftmost
nonterminal are determined by their productions, so a list of productions tells a leftmost
derivation: `expandAll` carries it out.
-/

namespace PinsSyntax

/-- A form of the grammar: a sequence of symbols. -/
abbrev Form := List GrammarSymbol

namespace Form

/-- The form of a sequence of tokens. -/
def ofKinds (kinds : List Kind) : Form := kinds.map .token

/-- One step: a nonterminal anywhere in the form is replaced. -/
inductive Step : Form → Form → Prop where
  | replace (before : Form) (p : Production) (after : Form) :
    Step (before ++ .rule p.lhs :: after) (before ++ p.rhs ++ after)

/-- Any number of steps. -/
inductive Derives : Form → Form → Prop where
  | refl (form : Form) : Derives form form
  | tail {a b c : Form} : Derives a b → Step b c → Derives a c

/-- Replaces the leftmost nonterminal of a form, if the production is one of its own. -/
def expand (p : Production) : Form → Option Form
  | [] => none
  | .token k :: form => (expand p form).map (.token k :: ·)
  | .rule n :: form => if p.lhs = n then some (p.rhs ++ form) else none

/-- Replaces the leftmost nonterminal again and again, by one production after another. -/
def expandAll (form : Form) (ps : List Production) : Option Form :=
  ps.foldlM (fun form p => expand p form) form

theorem step_of_expand {p : Production} {a b : Form} (h : expand p a = some b) : Step a b := by
  induction a generalizing b with
  | nil => simp [expand] at h
  | cons s form ih =>
    cases s with
    | token k =>
      obtain ⟨c, hc, rfl⟩ := Option.map_eq_some_iff.1 h
      cases ih hc with
      | replace before p after => exact .replace (.token k :: before) p after
    | rule n =>
      simp only [expand] at h
      split at h
      · rename_i hp
        cases h
        exact hp ▸ .replace [] p form
      · contradiction

theorem derives_of_expandAll {ps : List Production} {a b : Form}
    (h : expandAll a ps = some b) : Derives a b := by
  suffices ∀ c, Derives a c → expandAll c ps = some b → Derives a b from this a (.refl a) h
  clear h
  induction ps with
  | nil =>
    intro c hc h
    cases h
    exact hc
  | cons p ps ih =>
    intro c hc h
    obtain ⟨d, hd, h⟩ := Option.bind_eq_some_iff.1 h
    exact ih d (hc.tail (step_of_expand hd)) h

end Form

end PinsSyntax
