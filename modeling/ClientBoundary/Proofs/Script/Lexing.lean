import ClientBoundary.Script.Lexer
import Mathlib.Data.List.TakeWhile
import Mathlib.Tactic.SplitIfs

/-!
# Where the first token of a text stands

What stands before the first token of a text is read the same way whatever begins there.

- `Solid`: a text in which the first token begins at once;
- `firstLexeme?_split`: the first token of a text stands behind some characters, behind which
  another solid text would be found as well.
-/

namespace ClientBoundary
namespace Script

/-! ## Tokens where they are read -/

theorem Lexeme.read?_eq_some {text : List Char} {l : Lexeme} :
    Lexeme.read? text = some l ↔
      skipTrivia .code false text = some (l.newline, l.text) ∧
        token? l.text = some (l.token, l.rest) := by
  rw [Lexeme.read?, Option.bind_eq_some_iff]
  constructor
  · rintro ⟨⟨newline, body⟩, skipped, read⟩
    rcases Option.map_eq_some_iff.1 read with ⟨⟨t, rest⟩, token, rfl⟩
    exact ⟨skipped, token⟩
  · rintro ⟨skipped, read⟩
    exact ⟨(l.newline, l.text), skipped, by simp [read]⟩

theorem dropBeginning?_eq_some {beginning text rest : List Char}
    (h : dropBeginning? beginning text = some rest) : text = beginning ++ rest := by
  fun_induction dropBeginning? beginning text with
  | case1 text => simpa using h
  | case2 c cs ds ih => simp [ih h]
  | case3 => simp at h
  | case4 => simp at h

theorem dropBeginning?_append (beginning rest : List Char) :
    dropBeginning? beginning (beginning ++ rest) = some rest := by
  induction beginning with
  | nil => cases rest <;> rfl
  | cons c cs ih => simp [dropBeginning?, ih]

theorem punctuator?_eq_some {text rest : List Char} {p : String}
    (h : punctuator? text = some (p, rest)) (unlinked : p ≠ "?.") : text = p.toList ++ rest := by
  unfold punctuator? at h
  split at h
  · rcases Prod.mk.inj (Option.some.inj h) with ⟨rfl, -⟩
    exact absurd rfl unlinked
  · rcases List.exists_of_findSome?_eq_some h with ⟨q, -, found⟩
    rcases Option.map_eq_some_iff.1 found with ⟨r, dropped, same⟩
    rcases Prod.mk.inj same with ⟨rfl, rfl⟩
    exact dropBeginning?_eq_some dropped

theorem punctuator?_of_token? {text rest : List Char} {p : String}
    (h : token? text = some (.punctuator p, rest)) : punctuator? text = some (p, rest) := by
  unfold token? at h
  split at h
  · simp at h
  · -- all but the last two branches make other tokens
    split_ifs at h
    iterate 5 simp [Option.map_eq_some_iff] at h
    split at h
    · split_ifs at h
      · simp [Option.map_eq_some_iff] at h
      · simpa [Option.map_eq_some_iff] using h
    · simpa [Option.map_eq_some_iff] using h

/-- A greater-than sign begins one of its operators. -/
theorem greaterOperator?_isSome {text rest : List Char}
    (h : token? text = some (.punctuator ">", rest)) : (greaterOperator? text).isSome = true := by
  have shape := punctuator?_eq_some (punctuator?_of_token? h) (by decide)
  rw [greaterOperator?, List.findSome?_isSome_iff]
  refine ⟨">", by decide, ?_⟩
  rw [shape, dropBeginning?_append]
  rfl

/-! ## Before the first token -/

/-- A token begins at the front of a text at once. -/
def Solid (text : List Char) : Prop :=
  ∀ newline, skipTrivia .code newline text = some (newline, text)

theorem solid_cons {c : Char} {rest : List Char} (slash : c ≠ '/') (line : isLineBreak c = false)
    (blank : isBlank c = false) : Solid (c :: rest) := by
  intro newline
  unfold skipTrivia
  split <;> simp_all

/-- What is skipped before a solid text is skipped before any other one. -/
theorem skipTrivia_split {mode : TriviaMode} {newline line : Bool} {text body : List Char}
    (h : skipTrivia mode newline text = some (line, body)) (token : body ≠ []) :
    Solid body ∧ ∃ before, text = before ++ body ∧ (before = [] → mode = .code) ∧
      ∀ other, Solid other → skipTrivia mode newline (before ++ other) = some (line, other) := by
  -- along the characters that are skipped; each of them goes in front of those behind it
  fun_induction skipTrivia mode newline text with
  | case1 newline => simp at h
  | case2 mode newline _ => simp_all
  | case3 newline rest ih =>
      rcases ih h with ⟨solid, before, rfl, -, same⟩
      refine ⟨solid, '/' :: '/' :: before, rfl, by simp, fun other ho => ?_⟩
      simpa [skipTrivia] using same other ho
  | case4 newline rest ih =>
      rcases ih h with ⟨solid, before, rfl, -, same⟩
      refine ⟨solid, '/' :: '*' :: before, rfl, by simp, fun other ho => ?_⟩
      simpa [skipTrivia] using same other ho
  | case5 newline c rest _ _ breaks ih =>
      rcases ih h with ⟨solid, before, rfl, -, same⟩
      refine ⟨solid, c :: before, rfl, by simp, fun other ho => ?_⟩
      have step := same other ho
      have slash : c ≠ '/' := by
        rintro rfl
        simp [isLineBreak] at breaks
      rw [List.cons_append, skipTrivia, if_pos breaks, step] <;> simp_all
  | case6 newline c rest _ _ breaks blank ih =>
      rcases ih h with ⟨solid, before, rfl, -, same⟩
      refine ⟨solid, c :: before, rfl, by simp, fun other ho => ?_⟩
      have step := same other ho
      have slash : c ≠ '/' := by
        rintro rfl
        simp [isBlank] at blank
      rw [List.cons_append, skipTrivia, if_neg breaks, if_pos blank, step] <;> simp_all
  | case7 newline c rest lines blocks breaks blank =>
      -- nothing is skipped: here the first token begins
      rcases Prod.mk.inj (Option.some.inj h) with ⟨rfl, rfl⟩
      refine ⟨fun line => ?_, [], rfl, fun _ => rfl, fun other ho => ho newline⟩
      rw [skipTrivia, if_neg breaks, if_neg blank]
      · exact fun more => lines more
      · exact fun more => blocks more
  | case8 newline c rest breaks ih =>
      rcases ih h with ⟨solid, before, rfl, -, same⟩
      refine ⟨solid, c :: before, rfl, by simp, fun other ho => ?_⟩
      rw [List.cons_append, skipTrivia, if_pos breaks, same other ho]
  | case9 newline c rest breaks ih =>
      rcases ih h with ⟨solid, before, rfl, -, same⟩
      refine ⟨solid, c :: before, rfl, by simp, fun other ho => ?_⟩
      rw [List.cons_append, skipTrivia, if_neg breaks, same other ho]
  | case10 newline rest ih =>
      rcases ih h with ⟨solid, before, rfl, -, same⟩
      refine ⟨solid, '*' :: '/' :: before, rfl, by simp, fun other ho => ?_⟩
      simpa [skipTrivia] using same other ho
  | case11 newline c rest open_ ih =>
      rcases ih h with ⟨solid, before, rfl, inside, same⟩
      refine ⟨solid, c :: before, rfl, by simp, fun other ho => ?_⟩
      -- inside the comment something of it is left, so its end stays where it was
      obtain ⟨d, more, rfl⟩ : ∃ d more, before = d :: more := by
        cases before with
        | nil => simp at inside
        | cons d more => exact ⟨d, more, rfl⟩
      rw [List.cons_append, skipTrivia, same other ho]
      rintro rest rfl
      simp_all

theorem Solid.not_isLineBreak {c : Char} {rest : List Char} (h : Solid (c :: rest)) :
    isLineBreak c = false := by
  cases breaks : isLineBreak c with
  | false => rfl
  | true =>
      have slash : c ≠ '/' := by
        rintro rfl
        simp [isLineBreak] at breaks
      have step := h false
      rw [skipTrivia, if_pos breaks] at step <;> try simp_all
      -- a text is no proper part of itself
      rcases skipTrivia_split step (by simp) with ⟨-, before, shape, -⟩
      have size := congrArg List.length shape
      simp at size
      omega

theorem skipInterpreter_split {line : Bool} {text body : List Char}
    (h : skipTrivia .code false (skipInterpreter text) = some (line, body)) (token : body ≠ []) :
    Solid body ∧ ∃ before, text = before ++ body ∧ ∀ c rest, Solid (c :: rest) → c ≠ '#' →
      skipTrivia .code false (skipInterpreter (before ++ c :: rest)) = some (line, c :: rest) := by
  rcases skipTrivia_split h token with ⟨solid, before, shape, -, same⟩
  refine ⟨solid, ?_⟩
  unfold skipInterpreter at shape
  split at shape
  · -- the line of an interpreter ends at a line break, which is skipped before the token
    rename_i first
    let inLine (c : Char) : Bool := !isLineBreak c
    have left : first.dropWhile inLine = before ++ body := shape
    have stops := List.head?_dropWhile_not inLine first
    rw [left] at stops
    have whole : first = first.takeWhile inLine ++ (before ++ body) := by
      rw [← left, List.takeWhile_append_dropWhile]
    obtain ⟨d, more, rfl⟩ : ∃ d more, before = d :: more := by
      cases before with
      | cons d more => exact ⟨d, more, rfl⟩
      | nil =>
          cases body with
          | nil => simp at token
          | cons b bs => simp [inLine, solid.not_isLineBreak] at stops
    refine ⟨'#' :: '!' :: first.takeWhile inLine ++ d :: more, ?_, fun c rest hc _ => ?_⟩
    · simpa using whole
    · have kept : (first.takeWhile inLine ++ (d :: more ++ c :: rest)).dropWhile inLine =
          d :: more ++ c :: rest := by
        have inside : ∀ x ∈ first.takeWhile inLine, inLine x = true :=
          fun x hx => List.mem_takeWhile_imp (p := inLine) hx
        have breaks : ¬ inLine d = true := by simpa using stops
        rw [List.dropWhile_append_of_pos inside, List.cons_append,
          List.dropWhile_cons_of_neg breaks]
      have unfolded :
          skipInterpreter ('#' :: '!' :: first.takeWhile inLine ++ d :: more ++ c :: rest) =
            (first.takeWhile inLine ++ (d :: more ++ c :: rest)).dropWhile inLine := by
        simp [skipInterpreter, inLine]
      rw [unfolded, kept, same _ hc]
  · -- without such a line the text does not begin with one when another token begins there either
    refine ⟨before, shape, fun c rest hc hash => ?_⟩
    have unchanged : skipInterpreter (before ++ c :: rest) = before ++ c :: rest := by
      cases before with
      | nil =>
          unfold skipInterpreter
          split <;> simp_all
      | cons d more =>
          have sharp : d ≠ '#' := by
            rintro rfl
            have here : Solid ('#' :: (more ++ body)) :=
              solid_cons (by decide) (by decide) (by decide)
            rw [skipInterpreter, shape, List.cons_append, here false] at h <;> try assumption
            have size := congrArg List.length (Prod.mk.inj (Option.some.inj h)).2
            simp at size
            omega
          unfold skipInterpreter
          split <;> simp_all
    rw [unchanged, same _ hc]

/-- Up to its first token a text is read the same way when another solid text begins there. -/
theorem skipPreamble_split {line : Bool} {text body : List Char}
    (h : skipTrivia .code false (skipPreamble text) = some (line, body)) (token : body ≠ []) :
    Solid body ∧ ∃ before, text = before ++ body ∧
      ∀ c rest, Solid (c :: rest) → c ≠ '#' → c ≠ '\uFEFF' →
        skipTrivia .code false (skipPreamble (before ++ c :: rest)) = some (line, c :: rest) := by
  rcases skipInterpreter_split h token with ⟨solid, before, shape, same⟩
  refine ⟨solid, ?_⟩
  unfold skipMark at shape
  split at shape
  · rename_i rest
    refine ⟨'\uFEFF' :: before, by rw [shape, List.cons_append], fun c more hc hash _ => ?_⟩
    exact same c more hc hash
  · rename_i unmarked
    refine ⟨before, shape, fun c more hc hash mark => ?_⟩
    have unchanged : skipMark (before ++ c :: more) = before ++ c :: more := by
      cases before with
      | nil =>
          unfold skipMark
          split <;> simp_all
      | cons d others =>
          unfold skipMark
          split <;> simp_all
    rw [skipPreamble, unchanged, same c more hc hash]

theorem Lexeme.read?_length_le {text : List Char} {l : Lexeme} (h : Lexeme.read? text = some l) :
    l.text.length ≤ text.length := by
  rcases Lexeme.read?_eq_some.1 h with ⟨skipped, -⟩
  by_cases empty : l.text = []
  · simp [empty]
  · rcases skipTrivia_split skipped empty with ⟨-, before, shape, -⟩
    simp [shape]

/-- After a line break the token at the front of a solid text is read as it is. -/
theorem Lexeme.read?_of_solid {l : Lexeme} (solid : Solid l.text) (line : l.newline = true)
    (token : token? l.text = some (l.token, l.rest)) : Lexeme.read? ('\n' :: l.text) = some l := by
  refine Lexeme.read?_eq_some.2 ⟨?_, token⟩
  rw [skipTrivia, if_pos (by decide), solid true, line] <;> simp

/-! ## Quoted strings -/

/-- The characters that stand for themselves between quotes. -/
def isVerbatim (quote : Char) (c : Char) : Bool :=
  c ≠ quote && c ≠ '\\' && c ≠ '\n' && c ≠ '\r'

theorem stringBody?_of_verbatim {quote : Char} {value rest : List Char}
    (h : ∀ c ∈ value, isVerbatim quote c = true) :
    ∀ fuel, value.length < fuel →
      stringBody? quote fuel (value ++ quote :: rest) = some (value, rest) := by
  induction value with
  | nil =>
      intro fuel more
      obtain ⟨fuel, rfl⟩ : ∃ f, fuel = f + 1 := ⟨fuel - 1, by omega⟩
      simp [stringBody?]
  | cons c cs ih =>
      intro fuel more
      obtain ⟨fuel, rfl⟩ : ∃ f, fuel = f + 1 := ⟨fuel - 1, by omega⟩
      have here : isVerbatim quote c = true := h c (by simp)
      have left := ih (fun d hd => h d (List.mem_cons_of_mem c hd)) fuel (by simpa using more)
      simp [isVerbatim] at here
      simp [stringBody?, here, left]

theorem token?_of_verbatim {value rest : List Char}
    (h : ∀ c ∈ value, isVerbatim '\x27' c = true) :
    token? ('\x27' :: (value ++ '\x27' :: rest)) = some (.string (String.ofList value), rest) := by
  have body : stringBody? '\x27' ('\x27' :: (value ++ '\x27' :: rest)).length
      (value ++ '\x27' :: rest) = some (value, rest) :=
    stringBody?_of_verbatim h _ (by rw [List.length_cons, List.length_append]; omega)
  have start : (isNameStart '\x27' || decide ('\x27' = '\\')) = false := by decide
  have digit : isDigit '\x27' = false := by decide
  unfold token?
  simp only [start, digit, body]
  rfl

end Script
end ClientBoundary
