import Mathlib.Data.List.SplitBy
import PinsSyntax.Proofs.Token.StringBody

/-!
# Runs of quotes

A text behind an opening quote falls into runs of quotes and runs of other characters (`quoteRuns`).
The first run of an odd number of quotes closes the string, if all other characters in front of it
are printable (`ClosedBy`): its last quote is the closing one, and any two quotes before that stand
for one. So the text up to there is the value of the string with its quotes doubled
(`ClosedBy.flatten_eq`). If no run closes the string, there is a body with nothing printable behind
it (`exists_closedBy_or_body`), and this is an error. So the runs tell whether a string is scanned to
a token, to which one, and where it ends (`Reader.scanString_ok_iff_closedBy`).
-/

namespace PinsSyntax

open CharClass

/-- The longest runs of quotes and of other characters that a text is made of, in order. -/
def quoteRuns (text : List Char) : List (List Char) :=
  text.splitBy fun a b => (a == '\'') == (b == '\'')

/-- A text that consists of quotes, or has no quote in it. -/
def IsRun (run : List Char) : Prop :=
  (∀ c ∈ run, c = '\'') ∨ ∀ c ∈ run, c ≠ '\''

/-- A run of an odd number of quotes. -/
def IsOddQuotes (run : List Char) : Prop :=
  (∀ c ∈ run, c = '\'') ∧ run.length % 2 = 1

/-- What a run in a string stands for: quotes for half as many of them, and other characters for
themselves. -/
def runValue (run : List Char) : List Char :=
  if run.all (· == '\'') then List.replicate (run.length / 2) '\'' else run

/-- The run `closing` is the first one of an odd number of quotes, and all characters in front of it
that are no quotes are printable. -/
structure ClosedBy (runs front : List (List Char)) (closing : List Char)
    (later : List (List Char)) : Prop where
  runs_eq : runs = front ++ closing :: later
  odd : IsOddQuotes closing
  first : ∀ run ∈ front, ¬IsOddQuotes run
  printable : ∀ run ∈ front, ∀ c ∈ run, c ≠ '\'' → isPrintable c = true

variable {text run closing value rest : List Char} {runs front later : List (List Char)}

lemma all_quotes_iff : run.all (· == '\'') = true ↔ ∀ c ∈ run, c = '\'' := by
  simp only [List.all_eq_true, beq_iff_eq]

lemma isRun_of_mem (h : run ∈ quoteRuns text) : IsRun run := by
  cases run with
  | nil => exact .inl nofun
  | cons a run =>
    have hc : ((a :: run).map (· == '\'')).IsChain Eq :=
      (List.isChain_map _).2 ((List.isChain_of_mem_splitBy h).imp fun _ _ => eq_of_beq)
    have hall : ∀ c ∈ run, (c == '\'') = (a == '\'') := fun c hm =>
      (hc.rel_cons (List.mem_map_of_mem hm)).symm
    cases ha : a == '\'' with
    | true =>
      have hrun : ∀ c ∈ run, c = '\'' := fun c hm => eq_of_beq ((hall c hm).trans ha)
      exact .inl (List.forall_mem_cons.2 ⟨eq_of_beq ha, hrun⟩)
    | false =>
      have hrun : ∀ c ∈ run, c ≠ '\'' := fun c hm => ne_of_beq_false ((hall c hm).trans ha)
      exact .inr (List.forall_mem_cons.2 ⟨ne_of_beq_false ha, hrun⟩)

/-- No quote comes behind a run of quotes. -/
lemma head?_flatten_ne_quote (h : quoteRuns text = front ++ closing :: later)
    (hc : ∀ c ∈ closing, c = '\'') : later.flatten.head? ≠ some '\'' := by
  have hr := List.isChain_getLast_head_splitBy (fun a b => (a == '\'') == (b == '\'')) text
  rw [← quoteRuns, h] at hr
  cases later with
  | nil => nofun
  | cons next later =>
    obtain ⟨hne, hne', hd⟩ := hr.right_of_append.rel
    rw [List.flatten_cons, List.head?_append, List.head?_eq_some_head hne']
    intro hq
    rw [hc _ (List.getLast_mem hne), Option.some.inj hq] at hd
    cases hd

/-- A run that closes no string is what it stands for with the quotes doubled. -/
lemma doubleQuotes_runValue (hr : IsRun run) (ho : ¬IsOddQuotes run) :
    doubleQuotes (runValue run) = run := by
  unfold runValue
  split
  · rename_i hq
    have hq := all_quotes_iff.1 hq
    have hm : run.length % 2 ≠ 1 := fun hm => ho ⟨hq, hm⟩
    have he : 2 * (run.length / 2) = run.length := by omega
    rw [doubleQuotes_replicate, he]
    exact (List.eq_replicate_of_mem hq).symm
  · rename_i hq
    exact doubleQuotes_of_ne (hr.resolve_left (mt all_quotes_iff.2 hq))

lemma isPrintable_of_mem_runValue {c : Char} (hp : ∀ c ∈ run, c ≠ '\'' → isPrintable c = true)
    (hc : c ∈ runValue run) : isPrintable c = true := by
  by_cases hq : c = '\''
  · exact hq ▸ rfl
  · unfold runValue at hc
    split at hc
    · exact absurd (List.eq_of_mem_replicate hc) hq
    · exact hp c hc hq

/-- Runs that close no string are what they stand for with the quotes doubled. -/
lemma doubleQuotes_flatMap_runValue (hr : ∀ run ∈ runs, IsRun run)
    (ho : ∀ run ∈ runs, ¬IsOddQuotes run) :
    doubleQuotes (runs.flatMap runValue) = runs.flatten := by
  induction runs with
  | nil => rfl
  | cons run runs ih =>
    obtain ⟨hrun, hr⟩ := List.forall_mem_cons.1 hr
    obtain ⟨horun, ho⟩ := List.forall_mem_cons.1 ho
    rw [List.flatMap_cons, doubleQuotes_append, doubleQuotes_runValue hrun horun, ih hr ho,
      List.flatten_cons]

namespace ClosedBy

/-- The text up to the end of the run that closes a string is the value with its quotes doubled, and
one quote. -/
lemma flatten_eq (h : ClosedBy runs front closing later) (hr : ∀ run ∈ runs, IsRun run) :
    front.flatten ++ closing =
      doubleQuotes (front.flatMap runValue ++ List.replicate ((closing.length - 1) / 2) '\'') ++
        ['\''] := by
  obtain ⟨rfl, ⟨hq, hm⟩, hf, -⟩ := h
  have hfront : doubleQuotes (front.flatMap runValue) = front.flatten :=
    doubleQuotes_flatMap_runValue (fun run h => hr run (List.mem_append_left _ h)) hf
  have hclosing : closing = List.replicate (2 * ((closing.length - 1) / 2)) '\'' ++ ['\''] := by
    have hl : 2 * ((closing.length - 1) / 2) + 1 = closing.length := by omega
    rw [← List.replicate_succ', hl]
    exact List.eq_replicate_of_mem hq
  rw [doubleQuotes_append, hfront, doubleQuotes_replicate, List.append_assoc, ← hclosing]

lemma isPrintable_of_mem (h : ClosedBy runs front closing later) {n : Nat} :
    ∀ c ∈ front.flatMap runValue ++ List.replicate n '\'', isPrintable c = true := by
  intro c hc
  obtain hc | hc := List.mem_append.1 hc
  · obtain ⟨run, hrun, hc⟩ := List.mem_flatMap.1 hc
    exact isPrintable_of_mem_runValue (h.printable run hrun) hc
  · exact List.eq_of_mem_replicate hc ▸ rfl

/-- A run in front of the one that closes a string does not close it. -/
lemma cons (h : ClosedBy runs front closing later) (ho : ¬IsOddQuotes run)
    (hp : ∀ c ∈ run, c ≠ '\'' → isPrintable c = true) :
    ClosedBy (run :: runs) (run :: front) closing later :=
  ⟨congrArg (run :: ·) h.runs_eq, h.odd, List.forall_mem_cons.2 ⟨ho, h.first⟩,
    List.forall_mem_cons.2 ⟨hp, h.printable⟩⟩

end ClosedBy

/-- If no run closes a string, nothing printable comes behind a body. -/
lemma exists_closedBy_or_body (hr : ∀ run ∈ runs, IsRun run) :
    (∃ front closing later, ClosedBy runs front closing later) ∨
      ∃ value rest, runs.flatten = doubleQuotes value ++ rest ∧
        (∀ c ∈ value, isPrintable c = true) ∧ ∀ c ∈ rest.head?, isPrintable c = false := by
  induction runs with
  | nil => exact .inr ⟨[], [], rfl, nofun, nofun⟩
  | cons run runs ih =>
    obtain ⟨hrun, hr⟩ := List.forall_mem_cons.1 hr
    by_cases hp : ∀ c ∈ run, c ≠ '\'' → isPrintable c = true
    · by_cases ho : IsOddQuotes run
      · exact .inl ⟨[], run, runs, rfl, ho, nofun, nofun⟩
      · obtain ⟨front, closing, later, h⟩ | ⟨value, rest, hf, hv, hrest⟩ := ih hr
        · exact .inl ⟨run :: front, closing, later, h.cons ho hp⟩
        · refine .inr ⟨runValue run ++ value, rest, ?_, ?_, hrest⟩
          · rw [List.flatten_cons, hf, doubleQuotes_append, doubleQuotes_runValue hrun ho,
              List.append_assoc]
          · exact List.forall_mem_append.2 ⟨fun c hc => isPrintable_of_mem_runValue hp hc, hv⟩
    · -- The body ends within this run, which is not one of quotes.
      have hne : ∀ c ∈ run, c ≠ '\'' :=
        hrun.resolve_left fun hq => hp fun c hc hn => absurd (hq c hc) hn
      obtain ⟨value, rest, rfl, hv, hrest⟩ := exists_front isPrintable run
      have hd : doubleQuotes value = value :=
        doubleQuotes_of_ne fun c hc => hne c (List.mem_append_left rest hc)
      cases rest with
      | nil =>
        rw [List.append_nil] at hp
        exact absurd (fun c hc _ => hv c hc) hp
      | cons c rest =>
        refine .inr ⟨value, c :: rest ++ runs.flatten, ?_, hv, hrest⟩
        rw [List.flatten_cons, hd, List.append_assoc]

namespace Reader

variable {start : Reader} {before : List Char}

/-- A string is an error if nothing printable comes behind a body. -/
lemma exists_scanString_error (hv : ∀ c ∈ value, isPrintable c = true)
    (hr : ∀ c ∈ rest.head?, isPrintable c = false) :
    ∃ e, (scanString start (behind before (doubleQuotes value ++ rest)) "").1 = .error e := by
  have hb := stringBody_doubleQuotes hv
  by_cases hl : ∀ c ∈ rest.head?, isLineBreak c = true
  · exact ⟨_, congrArg Prod.fst (scanString_unterminated hb hl)⟩
  · obtain ⟨c, hc⟩ := Classical.not_forall.1 hl
    obtain ⟨hc, hn⟩ := Classical.not_imp.1 hc
    obtain ⟨rest, rfl⟩ := List.head?_eq_some_iff.1 hc
    exact ⟨_, congrArg Prod.fst (scanString_unprintable hb (hr c rfl) (Bool.eq_false_iff.2 hn))⟩

lemma scanString_of_closedBy (h : ClosedBy (quoteRuns text) front closing later) :
    scanString start (behind before text) "" =
      let stop := behind (before ++ (front.flatten ++ closing)) later.flatten
      let value := front.flatMap runValue ++ List.replicate ((closing.length - 1) / 2) '\''
      (.ok ⟨start.spanTo stop, .stringConstant, String.ofList value⟩, stop) := by
  have hf := h.flatten_eq fun _ => isRun_of_mem
  have hn := head?_flatten_ne_quote h.runs_eq h.odd.1
  have ht : text = front.flatten ++ closing ++ later.flatten := by
    rw [← List.flatten_splitBy (fun a b => (a == '\'') == (b == '\'')) text, ← quoteRuns, h.runs_eq,
      List.flatten_append, List.flatten_cons, List.append_assoc]
  rw [ht, hf, List.append_assoc]
  exact scanString_closed h.isPrintable_of_mem hn

/-- A string is scanned to a token if and only if there is a run of an odd number of quotes and
everything in front of the first such run is printable or a quote. It ends behind that run, and its
value is the text in front of the run with every run of quotes halved, and half the quotes of the run
that come before its last one. -/
theorem scanString_ok_iff_closedBy (start : Reader) (before text : List Char) :
    ((∃ t, (scanString start (behind before text) "").1 = .ok t) ↔
      ∃ front closing later, ClosedBy (quoteRuns text) front closing later) ∧
    ∀ front closing later, ClosedBy (quoteRuns text) front closing later →
      scanString start (behind before text) "" =
        let stop := behind (before ++ (front.flatten ++ closing)) later.flatten
        let value := front.flatMap runValue ++ List.replicate ((closing.length - 1) / 2) '\''
        (.ok ⟨start.spanTo stop, .stringConstant, String.ofList value⟩, stop) := by
  refine ⟨⟨?_, ?_⟩, fun _ _ _ => scanString_of_closedBy⟩
  · rintro ⟨t, ht⟩
    obtain h | ⟨value, rest, hf, hv, hr⟩ := exists_closedBy_or_body fun _ => isRun_of_mem
    · exact h
    · rw [quoteRuns, List.flatten_splitBy] at hf
      obtain ⟨e, he⟩ := @exists_scanString_error _ _ start before hv hr
      rw [hf, he] at ht
      cases ht
  · rintro ⟨front, closing, later, h⟩
    exact ⟨_, congrArg Prod.fst (scanString_of_closedBy h)⟩

/-- Four quotes in a row do not close a string, but three do. -/
theorem scanString_ok_iff_closedBy_threeQuotes :
    let text := "a''''b'''c".toList
    let start := behind [] ('\'' :: text)
    let front := [['a'], List.replicate 4 '\'', ['b']]
    let stop := behind ('\'' :: "a''''b'''".toList) ['c']
    ClosedBy (quoteRuns text) front (List.replicate 3 '\'') [['c']] ∧
    (∃ t, (scanString start (behind ['\''] text) "").1 = .ok t) ∧
    scanString start (behind ['\''] text) "" =
      (.ok ⟨start.spanTo stop, .stringConstant, "a''b'"⟩, stop) := by
  intro text start front stop
  have hfirst : ∀ run ∈ front, ¬IsOddQuotes run :=
    List.forall_mem_cons.2 ⟨fun h => absurd (h.1 'a' List.mem_cons_self) (by decide),
      List.forall_mem_cons.2 ⟨fun h => absurd h.2 (by decide),
        List.forall_mem_singleton.2 fun h => absurd (h.1 'b' List.mem_cons_self) (by decide)⟩⟩
  have hprintable : ∀ run ∈ front, ∀ c ∈ run, c ≠ '\'' → isPrintable c = true :=
    List.forall_mem_cons.2 ⟨List.forall_mem_singleton.2 fun _ => rfl,
      List.forall_mem_cons.2 ⟨fun c hc hq => absurd (List.eq_of_mem_replicate hc) hq,
        List.forall_mem_singleton.2 (List.forall_mem_singleton.2 fun _ => rfl)⟩⟩
  have h : ClosedBy (quoteRuns text) front (List.replicate 3 '\'') [['c']] :=
    ⟨by decide, ⟨fun c hc => List.eq_of_mem_replicate hc, rfl⟩, hfirst, hprintable⟩
  obtain ⟨hiff, hvalue⟩ := scanString_ok_iff_closedBy start ['\''] text
  exact ⟨h, hiff.2 ⟨_, _, _, h⟩, hvalue _ _ _ h⟩

end Reader

end PinsSyntax
