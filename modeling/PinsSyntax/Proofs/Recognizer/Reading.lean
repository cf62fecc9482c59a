import Mathlib.Data.List.Chain
import PinsSyntax.Proofs.Grammar.Lookahead
import PinsSyntax.Proofs.Token.Closed
import PinsSyntax.Recognizer.Basic

/-!
# Readings of a form

A form reads tokens by single steps: a token in front of the form takes the next token, if that is of
its kind, and a nonterminal in front of the form is replaced by the production that the kind of the
next token chooses. `Form.Reads` is any number of these steps with the log of their events, and
`Form.verdict?` is how a reading ends that can make no further step. A `Reading` is a whole one.

* `Form.Reads.yields`: a reading is a part of a leftmost derivation, told by the productions in its
  log.
* `Form.Yields.exists_reads`: a leftmost derivation of what stands before a token that can follow the
  form is read from its first production to its last.
* `Form.Reads.isChain`: symbols that may stand side by side do so as long as a form reads.
* `Form.Reads.of_mem_starts`: a reading comes to the same form in front of every token that this form
  can start with.
* `Form.Reads.exists_trans`: a reading that ends goes through every reading of the same tokens.
* `Reading.eq_of_prefix`: a reading ends in the same way in front of other tokens, as long as they
  agree up to and with the one that it ends at. With nothing changed, readings are unique.

A recognizer also tells of the stages that it begins. They belong to nonterminals
(`Nonterminal.stage?`), and each is told of where its nonterminal is to be replaced. So what a
recognizer tells of can be made out from the steps of a reading and the form that it comes to
(`Reading.events`).
-/

namespace PinsSyntax

/-- The stage that begins where a nonterminal is to be replaced. -/
def Nonterminal.stage? : Nonterminal → Option Stage
  | definitions => some .definitions
  | type => some .types
  | parameters => some .parameters
  | disjunction => some .disjunction
  | conjunction => some .conjunction
  | sum => some .sum
  | product => some .product
  | signed => some .signs
  | indexedTail => some .indexes
  | expressions => some .expressions
  | expression => some .expression
  | _ => none

/-- What is told before a nonterminal is replaced. -/
def Nonterminal.announcement (n : Nonterminal) : List Event := (n.stage?.map .began).toList

namespace Nonterminal

variable {n : Nonterminal}

lemma announcement_of_none (h : n.stage? = none) : n.announcement = [] := by
  rw [announcement, h]
  rfl

lemma announcement_of_some {st : Stage} (h : n.stage? = some st) :
    n.announcement = [.began st] := by
  rw [announcement, h]
  rfl

end Nonterminal

namespace Event

/-- The production that an event tells of. -/
def production? : Event → Option Production
  | applied p => some p
  | _ => none

/-- The token that an event tells of. -/
def token? : Event → Option Token
  | taken t => some t
  | _ => none

/-- What is told with a step of a reading: a production is announced. -/
def announced : Event → List Event
  | applied p => p.lhs.announcement ++ [applied p]
  | e => [e]

/-- The productions of a log, in order. -/
def productions (log : List Event) : List Production := log.filterMap production?

/-- The tokens of a log, in order. -/
def tokens (log : List Event) : List Token := log.filterMap token?

/-- What is told with the steps of a reading, in order. -/
def told (log : List Event) : List Event := log.flatMap announced

variable (log log' : List Event)

@[simp] lemma told_append : told (log ++ log') = told log ++ told log' := List.flatMap_append

@[simp] lemma productions_append : productions (log ++ log') = productions log ++ productions log' :=
  List.filterMap_append

@[simp] lemma tokens_append : tokens (log ++ log') = tokens log ++ tokens log' :=
  List.filterMap_append

/-- A production is chosen by the nonterminal that announces it. -/
lemma told_applied {n : Nonterminal} {k : Kind} {p : Production} (h : n.choose k = .ok p) :
    told [applied p] = n.announcement ++ [applied p] := by
  cases Nonterminal.lhs_of_choose h
  exact List.append_nil _

section

variable {α : Type} {f : Event → Option α} (hf : ∀ st, f (began st) = none)

include hf

/-- What does not look at the beginnings of stages finds nothing in an announcement. -/
lemma filterMap_announcement (n : Nonterminal) : n.announcement.filterMap f = [] := by
  cases hs : n.stage? with
  | none => rw [Nonterminal.announcement_of_none hs, List.filterMap_nil]
  | some st => rw [Nonterminal.announcement_of_some hs, List.filterMap_cons_none (hf st),
      List.filterMap_nil]

/-- What does not look at the beginnings of stages finds the same in the steps and in what is told
with them. -/
lemma filterMap_told (log : List Event) : (told log).filterMap f = log.filterMap f := by
  induction log with
  | nil => rfl
  | cons e log ih =>
    have he : (announced e).filterMap f = [e].filterMap f := by
      cases e with
      | applied p => rw [announced, List.filterMap_append, filterMap_announcement hf, List.nil_append]
      | taken _ => rfl
      | began _ => rfl
    show (announced e ++ told log).filterMap f = ([e] ++ log).filterMap f
    rw [List.filterMap_append, List.filterMap_append, he, ih]

end

@[simp] lemma productions_announcement (n : Nonterminal) : productions n.announcement = [] :=
  filterMap_announcement (fun _ => rfl) n

@[simp] lemma tokens_announcement (n : Nonterminal) : tokens n.announcement = [] :=
  filterMap_announcement (fun _ => rfl) n

@[simp] lemma productions_told : productions (told log) = productions log :=
  filterMap_told (fun _ => rfl) log

@[simp] lemma tokens_told : tokens (told log) = tokens log :=
  filterMap_told (fun _ => rfl) log

end Event

namespace Form

/-- A form reads tokens: in front of `tokens` it makes the steps `log`, and comes to stand as
`form'` in front of `tokens'`. -/
inductive Reads : Form → List Token → List Event → Form → List Token → Prop where
  | refl {form tokens} :
    Reads form tokens [] form tokens
  | token {k t form tokens log form' tokens'} :
    t.kind = k →
    Reads form tokens log form' tokens' →
    Reads (.token k :: form) (t :: tokens) (.taken t :: log) form' tokens'
  | rule {n p t form tokens log form' tokens'} :
    n.choose t.kind = .ok p →
    Reads (p.rhs ++ form) (t :: tokens) log form' tokens' →
    Reads (.rule n :: form) (t :: tokens) (.applied p :: log) form' tokens'

/-- What is told before the nonterminal in front of a form is replaced. -/
def announcement : Form → List Event
  | .rule n :: _ => n.announcement
  | _ => []

/-- What a form expects in place of a token of the kind `k`, if it cannot go on in front of one. -/
def expected? : Form → Kind → Option Expectation
  | [], _ => none
  | .token k' :: _, k => if k = k' then none else some (.token k')
  | .rule n :: _, k =>
    match n.choose k with
    | .ok _ => none
    | .error e => some e

/-- The verdict that is given where a form cannot go on in front of a token: nothing may be left of
the form, and the token has to be the end of input. -/
def verdict? (form : Form) (t : Token) : Option (Except SyntaxError Unit) :=
  match form with
  | [] => some (if t.isEnd then .ok () else .error (.trailing t))
  | _ :: _ => (form.expected? t.kind).map fun e => .error (.unexpected t e)

variable {form form' form'' rest : Form} {tokens tokens' tokens'' : List Token}
  {log log' : List Event} {t : Token} {ps : List Production} {kinds : List Kind}

@[simp] lemma productions_announcement (form : Form) : Event.productions form.announcement = [] := by
  cases form with
  | nil => rfl
  | cons s form =>
    cases s with
    | token _ => rfl
    | rule n => exact Event.productions_announcement n

@[simp] lemma tokens_announcement (form : Form) : Event.tokens form.announcement = [] := by
  cases form with
  | nil => rfl
  | cons s form =>
    cases s with
    | token _ => rfl
    | rule n => exact Event.tokens_announcement n

/-- What a reading has gone past are the tokens of its log. -/
lemma Reads.tokens_eq (h : Reads form tokens log form' tokens') :
    tokens = Event.tokens log ++ tokens' := by
  induction h with
  | refl => rfl
  | @token k t _ _ _ _ _ _ _ ih => exact congrArg (t :: ·) ih
  | rule _ _ ih => exact ih

/-- A reading goes on where another one has come to. -/
lemma Reads.trans (h : Reads form tokens log form' tokens')
    (h' : Reads form' tokens' log' form'' tokens'') :
    Reads form tokens (log ++ log') form'' tokens'' := by
  induction h with
  | refl => exact h'
  | token hk _ ih => exact .token hk (ih h')
  | rule hc _ ih => exact .rule hc (ih h')

/-- A reading does not depend on what comes behind the form. -/
lemma Reads.append (h : Reads form tokens log form' tokens') (rest : Form) :
    Reads (form ++ rest) tokens log (form' ++ rest) tokens' := by
  induction h with
  | refl => exact .refl
  | token hk _ ih => exact .token hk ih
  | rule hc _ ih =>
    rw [List.append_assoc] at ih
    exact .rule hc ih

/-- A reading is a part of a leftmost derivation: it is completed by any leftmost derivation from
what is left of the form. -/
lemma Reads.yields (h : Reads form tokens log form' tokens') (hy : Yields form' ps kinds) :
    Yields form (Event.productions log ++ ps) ((Event.tokens log).map Token.kind ++ kinds) := by
  induction h with
  | refl => exact hy
  | token hk _ ih =>
    cases hk
    exact .token (ih hy)
  | @rule n p t _ _ _ _ _ hc _ ih =>
    cases Nonterminal.lhs_of_choose hc
    exact .rule (ih hy)

/-- A leftmost derivation of what stands before a token that can follow the form is read. -/
lemma Yields.exists_reads {body behind : List Token} {after : List Kind} (ht : t.kind ∈ after)
    (hf : FollowedBy form after) (h : Yields form ps (body.map Token.kind)) :
    ∃ log, Reads form (body ++ t :: behind) log [] (t :: behind) ∧ Event.productions log = ps := by
  generalize hk : body.map Token.kind = kinds at h
  induction h generalizing body with
  | nil =>
    cases List.map_eq_nil_iff.1 hk
    exact ⟨[], .refl, rfl⟩
  | token _ ih =>
    obtain ⟨u, body, rfl, rfl, rfl⟩ := List.map_eq_cons_iff.1 hk
    obtain ⟨log, hr, rfl⟩ := ih hf rfl
    exact ⟨.taken u :: log, .token rfl hr, rfl⟩
  | @rule p form ps kinds h ih =>
    obtain ⟨log, hr, rfl⟩ := ih hf.expand hk
    refine ⟨.applied p :: log, ?_, rfl⟩
    -- The kind that comes next is the first of the body, or that of the token behind it.
    have hc : ∀ k, (kinds ++ [t.kind]).head? = some k → p.lhs.choose k = .ok p :=
      fun k => h.choose_eq hf ht
    cases body with
    | nil =>
      subst hk
      exact .rule (hc _ rfl) hr
    | cons u body =>
      subst hk
      exact .rule (hc _ rfl) hr

/-- A reading looks at no token behind the one that it comes to. -/
lemma Reads.of_prefix {behind : List Token} (h : Reads form tokens log form' (t :: behind))
    (behind' : List Token) :
    Reads form (Event.tokens log ++ t :: behind') log form' (t :: behind') := by
  generalize e : t :: behind = tokens' at h
  induction h with
  | refl => exact .refl
  | token hk _ ih => exact .token hk (ih e)
  | @rule n p u form tokens log form' tokens' hc h ih =>
    have hu : u :: tokens = Event.tokens log ++ t :: behind := by rw [h.tokens_eq, e]
    have ih := ih e
    show Reads _ (Event.tokens log ++ t :: behind') _ _ _
    -- The production was chosen in front of `u`: the first token taken later, or `t` if none is.
    cases hl : Event.tokens log with
    | nil =>
      rw [hl] at hu ih
      cases hu
      exact .rule hc ih
    | cons v tokens' =>
      rw [hl] at hu ih
      cases hu
      exact .rule hc ih

/-- A reading without steps stays where it is. -/
lemma Reads.eq_of_nil (h : Reads form tokens [] form' tokens') :
    form' = form ∧ tokens' = tokens := by
  cases h
  exact ⟨rfl, rfl⟩

/-- A reading is cut anywhere in its log. -/
lemma Reads.exists_of_append (h : Reads form tokens (log ++ log') form' tokens') :
    ∃ form'' tokens'', Reads form tokens log form'' tokens'' ∧
      Reads form'' tokens'' log' form' tokens' := by
  induction log generalizing form tokens with
  | nil => exact ⟨form, tokens, .refl, h⟩
  | cons e log ih =>
    cases h with
    | token hk h =>
      obtain ⟨form'', tokens'', hr, hr'⟩ := ih h
      exact ⟨form'', tokens'', .token hk hr, hr'⟩
    | rule hc h =>
      obtain ⟨form'', tokens'', hr, hr'⟩ := ih h
      exact ⟨form'', tokens'', .rule hc hr, hr'⟩

/-- A reading makes no step, or its last one replaces a nonterminal or takes a token. -/
lemma Reads.last_cases (h : Reads form tokens log form' tokens') :
    (log = [] ∧ form = form') ∨
    (∃ log' p rest, log = log' ++ [.applied p] ∧ form' = p.rhs ++ rest ∧
      Reads form tokens log' (.rule p.lhs :: rest) tokens') ∨
    ∃ log' t, log = log' ++ [.taken t] ∧
      Reads form tokens log' (.token t.kind :: form') (t :: tokens') := by
  rcases List.eq_nil_or_concat log with rfl | ⟨log', e, rfl⟩
  · exact .inl ⟨rfl, h.eq_of_nil.1.symm⟩
  · rw [List.concat_eq_append] at h ⊢
    obtain ⟨_, _, hr, h⟩ := h.exists_of_append
    cases h with
    | @token k t _ _ _ _ _ hk h =>
      cases hk
      obtain ⟨rfl, rfl⟩ := h.eq_of_nil
      exact .inr (.inr ⟨log', t, rfl, hr⟩)
    | @rule n p _ rest _ _ _ _ hc h =>
      cases Nonterminal.lhs_of_choose hc
      obtain ⟨rfl, rfl⟩ := h.eq_of_nil
      exact .inr (.inl ⟨log', p, rest, rfl, rfl, hr⟩)

/-- What follows the nonterminals of a form stays allowed while it reads. -/
lemma Reads.followedBy {after : List Kind} (h : Reads form tokens log form' tokens')
    (hf : FollowedBy form after) : FollowedBy form' after := by
  induction h with
  | refl => exact hf
  | token _ _ ih => exact ih hf
  | rule hc _ ih =>
    cases Nonterminal.lhs_of_choose hc
    exact ih hf.expand

/-- A production keeps a relation between neighbours if its own symbols do, and its last one with all
that may stand behind the nonterminal. -/
lemma isChain_expand {R : GrammarSymbol → GrammarSymbol → Prop} {p : Production}
    (hp : p.rhs.IsChain R ∧ ∀ a ∈ p.rhs.getLast?, ∀ b, R (.rule p.lhs) b → R a b)
    (hf : List.IsChain R (.rule p.lhs :: form)) : List.IsChain R (p.rhs ++ form) := by
  refine hp.1.append hf.tail fun a ha b hb => hp.2 a ha b ?_
  obtain ⟨form, rfl⟩ := List.head?_eq_some_iff.1 hb
  exact (List.isChain_cons_cons.1 hf).1

/-- A relation between neighbours that all productions keep holds in a form as long as it reads. -/
lemma Reads.isChain {R : GrammarSymbol → GrammarSymbol → Prop}
    (hp : ∀ p : Production, p.rhs.IsChain R ∧
      ∀ a ∈ p.rhs.getLast?, ∀ b, R (.rule p.lhs) b → R a b)
    (h : Reads form tokens log form' tokens') (hf : form.IsChain R) : form'.IsChain R := by
  induction h with
  | refl => exact hf
  | token _ _ ih => exact ih hf.tail
  | rule hc _ ih =>
    cases Nonterminal.lhs_of_choose hc
    exact ih (isChain_expand (hp _) hf)

/-- A form that has taken no token has not gained a start. -/
lemma Reads.starts_subset {after : List Kind} (h : Reads form tokens log form' tokens')
    (hl : Event.tokens log = []) : starts form' after ⊆ starts form after := by
  induction h with
  | refl => exact List.Subset.refl _
  | token => cases hl
  | rule hc _ ih =>
    cases Nonterminal.lhs_of_choose hc
    exact List.Subset.trans (ih hl) starts_expand

/-- A reading comes to the same form in front of every token that this form can start with: the
replacements that have been made in front of the token are those that it chooses. -/
lemma Reads.of_mem_starts {behind : List Token} {after : List Kind} {u : Token}
    (h : Reads form tokens log form' (t :: behind)) (hf : FollowedBy form after)
    (hu : u.kind ∈ starts form' after) (behind' : List Token) :
    Reads form (Event.tokens log ++ u :: behind') log form' (u :: behind') := by
  generalize e : t :: behind = tokens' at h
  induction h with
  | refl => exact .refl
  | token hk _ ih => exact .token hk (ih hf hu e)
  | @rule n p v form tokens log form' tokens' hc h ih =>
    cases Nonterminal.lhs_of_choose hc
    have hv : v :: tokens = Event.tokens log ++ t :: behind := by rw [h.tokens_eq, e]
    have ih := ih hf.expand hu e
    show Reads _ (Event.tokens log ++ u :: behind') _ _ _
    cases hl : Event.tokens log with
    | nil =>
      rw [hl] at ih
      have hs := h.starts_subset hl hu
      rw [starts_append] at hs
      exact .rule (Production.choose_of_mem_lookahead (starts_mono hf.1 hs)) ih
    | cons w tokens' =>
      rw [hl] at hv ih
      cases hv
      exact .rule hc ih

/-- A reading that can give its verdict makes no further step. -/
lemma Reads.eq_of_verdict {behind : List Token} {v : Except SyntaxError Unit}
    (hv : form.verdict? t = some v) (h : Reads form (t :: behind) log form' tokens') :
    log = [] ∧ form' = form ∧ tokens' = t :: behind := by
  cases h with
  | refl => exact ⟨rfl, rfl, rfl⟩
  | token hk h => simp [verdict?, expected?, hk] at hv
  | rule hc h => simp [verdict?, expected?, hc] at hv

/-- A reading that ends goes through every other reading of the same tokens from the same form. -/
lemma Reads.exists_trans {behind : List Token} {v : Except SyntaxError Unit}
    (h : Reads form tokens log form' (t :: behind)) (hv : form'.verdict? t = some v)
    (h' : Reads form tokens log' form'' tokens'') :
    ∃ log'', log = log' ++ log'' ∧ Reads form'' tokens'' log'' form' (t :: behind) := by
  induction h' generalizing log with
  | refl => exact ⟨log, rfl, h⟩
  | @token k u _ _ _ _ _ hk _ ih =>
    cases h with
    | refl => simp [verdict?, expected?, hk] at hv
    | token _ h =>
      obtain ⟨log'', rfl, hr⟩ := ih h
      exact ⟨log'', rfl, hr⟩
  | rule hc _ ih =>
    cases h with
    | refl => simp [verdict?, expected?, hc] at hv
    | rule hc' h =>
      cases hc.symm.trans hc'
      obtain ⟨log'', rfl, hr⟩ := ih h
      exact ⟨log'', rfl, hr⟩

/-- Readings of the same tokens from the same form that both end have taken the same steps. -/
lemma Reads.unique {t t' : Token} {behind behind' : List Token} {v v' : Except SyntaxError Unit}
    (h : Reads form tokens log form' (t :: behind)) (hv : form'.verdict? t = some v)
    (h' : Reads form tokens log' form'' (t' :: behind')) (hv' : form''.verdict? t' = some v') :
    log' = log ∧ form'' = form' ∧ t' :: behind' = t :: behind := by
  obtain ⟨log'', rfl, hr⟩ := h.exists_trans hv h'
  obtain ⟨rfl, hf, ht⟩ := hr.eq_of_verdict hv'
  exact ⟨(List.append_nil log').symm, hf.symm, ht.symm⟩

end Form

/-- A whole reading of tokens by a form: its steps, what is left of the form and of the tokens where
it makes no further step, and the verdict that it gives there. -/
structure Reading (form : Form) (tokens : List Token) where
  log : List Event
  rest : Form
  front : Token
  behind : List Token
  verdict : Except SyntaxError Unit
  reads : form.Reads tokens log rest (front :: behind)
  ends : rest.verdict? front = some verdict

namespace Reading

variable {form : Form} {tokens : List Token}

/-- The tokens that are read past. -/
def before (r : Reading form tokens) : List Token := Event.tokens r.log

/-- The productions that are applied. -/
def productions (r : Reading form tokens) : List Production := Event.productions r.log

/-- What is told of a reading: its steps, and the announcement of the nonterminal in front of what is
left, if it cannot be replaced. -/
def events (r : Reading form tokens) : List Event := Event.told r.log ++ r.rest.announcement

lemma tokens_eq (r : Reading form tokens) : tokens = r.before ++ r.front :: r.behind :=
  r.reads.tokens_eq

/-- The end of input of a closed sequence is not read past. -/
lemma closed (r : Reading form tokens) (h : Token.Closed tokens) :
    Token.Closed (r.front :: r.behind) ∧ ∀ t ∈ r.before, t.isEnd = false :=
  (r.tokens_eq ▸ h).of_append (List.cons_ne_nil _ _)

lemma take_length_before (r : Reading form tokens) : tokens.take r.before.length = r.before := by
  have h := congrArg (List.take r.before.length) r.tokens_eq
  rwa [List.take_left] at h

/-- A reading ends at a token. -/
lemma length_before_lt (r : Reading form tokens) : r.before.length < tokens.length := by
  have h := congrArg List.length r.tokens_eq
  rw [List.length_append, List.length_cons] at h
  omega

@[simp] lemma productions_events (r : Reading form tokens) :
    Event.productions r.events = r.productions := by
  simp [events, productions]

@[simp] lemma tokens_events (r : Reading form tokens) : Event.tokens r.events = r.before := by
  simp [events, before]

/-- A reading ends in the same way wherever the tokens agree up to and with the one it ends at. -/
lemma eq_of_prefix {behind : List Token} (r : Reading form tokens)
    (r' : Reading form (r.before ++ r.front :: behind)) :
    r'.log = r.log ∧ r'.rest = r.rest ∧ r'.front = r.front ∧ r'.verdict = r.verdict := by
  obtain ⟨hl, hr, ht⟩ := (r.reads.of_prefix behind).unique r.ends r'.reads r'.ends
  obtain ⟨hf, -⟩ := List.cons_eq_cons.1 ht
  refine ⟨hl, hr, hf, ?_⟩
  have hv := r'.ends
  rw [hr, hf, r.ends] at hv
  exact Option.some.inj hv.symm

/-- There is at most one reading of the same tokens. -/
instance : Subsingleton (Reading form tokens) where
  allEq r r' := by
    obtain ⟨log, rest, front, behind, verdict, reads, ends⟩ := r
    obtain ⟨log', rest', front', behind', verdict', reads', ends'⟩ := r'
    obtain ⟨rfl, rfl, ht⟩ := reads.unique ends reads' ends'
    obtain ⟨rfl, rfl⟩ := List.cons_eq_cons.1 ht
    cases ends.symm.trans ends'
    rfl

/-- A reading accepts where nothing is left of the form in front of the end of input. -/
lemma verdict_eq_ok_iff (r : Reading form tokens) :
    r.verdict = .ok () ↔ r.rest = [] ∧ r.front.isEnd = true := by
  obtain ⟨log, rest, front, behind, verdict, reads, ends⟩ := r
  cases rest with
  | nil =>
    cases he : front.isEnd with
    | true =>
      cases ends
      simp [he]
    | false =>
      cases ends
      simp [he]
  | cons s rest =>
    obtain ⟨e, -, rfl⟩ := Option.map_eq_some_iff.1 ends
    simp

/-- A reading that accepts has read past all but the end of input. -/
lemma length_before_of_ok (r : Reading form tokens) (h : Token.Closed tokens)
    (hv : r.verdict = .ok ()) : r.before.length + 1 = tokens.length := by
  have hb := (r.closed h).1.behind_eq_nil (r.verdict_eq_ok_iff.1 hv).2
  have hl := congrArg List.length r.tokens_eq
  rw [hb, List.length_append] at hl
  exact hl.symm

end Reading

end PinsSyntax
