import ClientBoundary.Proofs.Glob.Segments
import ClientBoundary.Proofs.Glob.Taking
import ClientBoundary.Proofs.Text.ByteOrder
import Mathlib.Tactic.SplitIfs

/-!
# Segments as tokens

A double star takes the slash before it into its token, or the slash behind it when it stands in
front, so the tokens of a segment depend on what is before it. They take a path exactly when the
segments lead to it.

- `patternTokens`, `parse_joined`: the tokens of a pattern, by its segments;
- `takes_segment`, `takes_across`: the tokens of one segment, at its place and behind a double star;
- `takes_behind`, `accepts_leading`, `accepts_joined`: the tokens of all segments.
-/

namespace ClientBoundary
namespace Glob

open Text (charBytes)

/-! ## Parts between separators -/

section Parts

variable {α : Type} (separator : α)

/-- Parts, each behind a separator. -/
def behind (parts : List (List α)) : List α :=
  parts.flatMap (separator :: ·)

/-- Parts with separators between them. -/
def joined : List (List α) → List α
  | [] => []
  | part :: more => part ++ behind separator more

theorem behind_eq {parts : List (List α)} (filled : parts ≠ []) :
    behind separator parts = separator :: joined separator parts := by
  cases parts with
  | nil => exact absurd rfl filled
  | cons part more => simp [behind, joined]

end Parts

/-! ## Tokens -/

/-- The token of a character in an ordinary segment. -/
def charToken (c : Char) : Token :=
  if c = '?' then .any else if c = '*' then .many else .literal c

/-- What a separator becomes when a double star follows: a double star that begins the pattern
stays, and any other separator turns into a double star at the end or between. -/
def withStars (separator : Token) (last : Bool) : Token :=
  match separator with
  | .leading => .leading
  | _ => if last then .trailing else .between

theorem isEverything_charToken (c : Char) (more : List Token) :
    isEverything (charToken c :: more) = false := by
  unfold charToken
  split_ifs <;> rfl

/-- The tokens of segments behind a separator. -/
def tokensBehind (separator : Token) : List (List Char) → List Token
  | [] => []
  | s :: more =>
      if s = stars then
        if more = [] then [withStars separator true]
        else tokensBehind (withStars separator false) more
      else
        separator :: s.map charToken ++ tokensBehind (.literal '/') more

/-- The tokens of a pattern, by its segments. -/
def patternTokens : List (List Char) → List Token
  | [] => []
  | s :: more =>
      if s = stars then
        if more = [] then [.leading] else tokensBehind .leading more
      else
        s.map charToken ++ tokensBehind (.literal '/') more

/-! ## Reading a pattern -/

/-- A character outside classes, groups and escapes becomes one token, unless it is the first of two
stars. -/
theorem scan_char {b : Builder} (outside : b.groups = []) (previous : Option Char) {c : Char}
    {text : List Char} (ordinary : c ∉ ['[', '{', '}', '\\'])
    (single : c = '*' → text.head? ≠ some '*') :
    scan b (.plain previous) (c :: text) =
      scan (b.push (charToken c)) (.plain (some c)) text := by
  simp only [List.mem_cons, List.not_mem_nil, or_false, not_or] at ordinary
  rcases ordinary with ⟨bracket, opening, closing, escape⟩
  by_cases question : c = '?'
  · rw [question, scan]
    rfl
  by_cases star : c = '*'
  · have alone : ∀ more, text ≠ '*' :: more := by
      rintro more rfl
      exact single star rfl
    rw [star, scan]
    · rfl
    · exact fun more _ shape => alone more shape
  have token : charToken c = .literal c := by rw [charToken, if_neg question, if_neg star]
  by_cases comma : c = ','
  · rw [comma, scan, Builder.comma, outside]
    rfl
  rw [token, scan]
  all_goals simp [question, star, comma, bracket, opening, closing, escape]

/-- The characters of an ordinary segment become one token each, up to a slash or the end. -/
theorem scan_segment {s text : List Char} (ordinary : ∀ c ∈ s, c ∉ ['/', '[', '{', '}', '\\'])
    (apart : s.IsChain fun c d => ¬(c = '*' ∧ d = '*')) (ended : text.head? ≠ some '*')
    {b : Builder} (outside : b.groups = []) (previous : Option Char) :
    ∃ last, scan b (.plain previous) (s ++ text) =
      scan ⟨[], (s.map charToken).reverse ++ b.current⟩ (.plain last) text := by
  induction s generalizing b previous with
  | nil => exact ⟨previous, by rw [← outside]; rfl⟩
  | cons c s ih =>
      have single : c = '*' → (s ++ text).head? ≠ some '*' := by
        intro star
        cases s with
        | nil => exact ended
        | cons d s =>
            intro second
            exact (List.isChain_cons_cons.1 apart).1 ⟨star, Option.some.inj second⟩
      have usual : c ∉ ['[', '{', '}', '\\'] :=
        fun mem => ordinary c List.mem_cons_self (List.mem_cons_of_mem '/' mem)
      rcases ih (fun d hd => ordinary d (List.mem_cons_of_mem c hd))
        (List.isChain_of_isChain_cons apart) (b := b.push (charToken c)) outside (some c) with
        ⟨last, rest⟩
      refine ⟨last, ?_⟩
      rw [List.cons_append, scan_char outside previous usual single, rest]
      simp [Builder.push]

theorem replaceSlash_separator {separator : Token} (open_ : separator ≠ .trailing)
    (before : List Token) (last : Bool) :
    (Builder.mk [] (separator :: before)).replaceSlash (if last then .trailing else .between) =
      ⟨[], withStars separator last :: before⟩ := by
  cases separator with
  | trailing => exact absurd rfl open_
  | _ => rfl

/-- The segments behind a slash are read like those behind any separator. -/
theorem scan_behind {segments : List (List Char)} (current : List Token) (previous : Option Char)
    (further : segments ≠ [] →
      scan ⟨[], .literal '/' :: current⟩ (.plain (some '/')) (joined '/' segments) =
        .ok (current.reverse ++ tokensBehind (.literal '/') segments)) :
    scan ⟨[], current⟩ (.plain previous) (behind '/' segments) =
      .ok (current.reverse ++ tokensBehind (.literal '/') segments) := by
  by_cases filled : segments = []
  · simp [filled, behind, scan, Builder.finish, tokensBehind]
  · rw [behind_eq '/' filled,
      scan_char rfl previous (by decide) fun star => absurd star (by decide)]
    exact further filled

/-- Behind a separator, each segment becomes its tokens. -/
theorem scan_joined {segments : List (List Char)} (valid : ∀ s ∈ segments, IsSegment s)
    (filled : segments ≠ []) {separator : Token} (open_ : separator ≠ .trailing)
    (before : List Token) :
    scan ⟨[], separator :: before⟩ (.plain (some '/')) (joined '/' segments) =
      .ok (before.reverse ++ tokensBehind separator segments) := by
  induction segments generalizing separator before with
  | nil => exact absurd rfl filled
  | cons s more ih =>
      have rest := ih fun t ht => valid t (List.mem_cons_of_mem s ht)
      by_cases whole : s = stars
      · -- the separator turns into a double star
        have turned := replaceSlash_separator open_ before
        by_cases last : more = []
        · have put := turned true
          simp only [if_true] at put
          simp [whole, last, joined, behind, stars, scan, starsMayFillSegment, put, Builder.finish,
            tokensBehind]
        · have put := turned false
          simp only [Bool.false_eq_true, if_false] at put
          have going : withStars separator false ≠ .trailing := by
            cases separator <;> simp [withStars]
          rw [joined, behind_eq '/' last, whole, tokensBehind, if_pos rfl, if_neg last,
            ← rest last going before]
          simp [stars, scan, starsMayFillSegment, put]
      · rcases (valid s List.mem_cons_self).resolve_left whole with ⟨-, ordinary, apart⟩
        have ended : (behind '/' more).head? ≠ some '*' := by
          cases more <;> simp [behind]
        rcases scan_segment ordinary apart ended (b := ⟨[], separator :: before⟩) rfl
            (some '/') with ⟨last, taken⟩
        rw [joined, taken, scan_behind _ last fun pending => rest pending (by simp) _, tokensBehind,
          if_neg whole]
        simp

/-- The tokens of a pattern are those of its segments. -/
theorem parse_joined {segments : List (List Char)} (valid : ∀ s ∈ segments, IsSegment s) :
    parse (joined '/' segments) = .ok (patternTokens segments) := by
  cases segments with
  | nil => rfl
  | cons s more =>
      have rest := @scan_joined more fun t ht => valid t (List.mem_cons_of_mem s ht)
      rw [parse, joined, patternTokens]
      by_cases whole : s = stars
      · rw [if_pos whole, whole]
        by_cases last : more = []
        · simp [last, behind, stars, scan, Builder.empty, Builder.push, Builder.finish]
        · -- the stars are put together with the slash behind them
          have going : Token.leading ≠ .trailing := by simp
          rw [behind_eq '/' last, if_neg last, ← List.nil_append (tokensBehind _ _),
            ← List.reverse_nil, ← rest last going []]
          simp [stars, scan, Builder.empty, Builder.push]
      · rcases (valid s List.mem_cons_self).resolve_left whole with ⟨-, ordinary, apart⟩
        have ended : (behind '/' more).head? ≠ some '*' := by
          cases more <;> simp [behind]
        rcases scan_segment ordinary apart ended (b := .empty) rfl none with ⟨last, taken⟩
        rw [taken, scan_behind _ last fun pending => rest pending (by simp) _, if_neg whole]
        simp [Builder.empty]

/-! ## Matching a path -/

/-- The token of a character takes what the character stands for, up to the next slash. -/
theorem mem_rests_charToken {c : Char} (solid : c ≠ '/') {text rest : List UInt8} :
    rest ∈ (charToken c).rests text ↔
      ∃ front, slash ∉ front ∧ text = front ++ rest ∧ Takes c front := by
  by_cases question : c = '?'
  · simp only [charToken, Takes, question, if_true, mem_rests_any]
    constructor
    · rintro ⟨b, stop, rfl⟩
      exact ⟨[b], by simpa using Ne.symm stop, rfl, rfl⟩
    · rintro ⟨front, apart, rfl, single⟩
      rcases List.length_eq_one_iff.1 single with ⟨b, rfl⟩
      exact ⟨b, by simpa [eq_comm] using apart, rfl⟩
  by_cases star : c = '*'
  · simp [charToken, Takes, star, Token.rests, mem_segmentRests]
  · have apart : slash ∉ charBytes c := fun mem =>
      solid ((Text.mem_charBytes_ascii (show '/'.toNat < 0x80 by decide)).1 mem)
    simp only [charToken, Takes, question, star, if_false, Token.rests, mem_afterBytes]
    constructor
    · intro shape
      exact ⟨charBytes c, apart, shape, rfl⟩
    · rintro ⟨front, -, shape, rfl⟩
      exact shape

/-- The tokens of a segment take what the segment fits, up to the next slash. -/
theorem mem_rests_segment {s : List Char} (solid : '/' ∉ s) {text rest : List UInt8} :
    rest ∈ sequenceRests (s.map charToken) text ↔
      ∃ front, slash ∉ front ∧ text = front ++ rest ∧ Fits s front := by
  induction s generalizing text with
  | nil =>
      simp only [List.map_nil, sequenceRests, List.mem_singleton, fits_nil_iff]
      constructor
      · rintro rfl
        exact ⟨[], List.not_mem_nil, rfl, rfl⟩
      · rintro ⟨front, -, shape, rfl⟩
        exact shape.symm
  | cons c s ih =>
      rw [List.mem_cons, not_or] at solid
      rw [List.map_cons, sequenceRests, List.mem_flatMap]
      simp only [mem_rests_charToken (Ne.symm solid.1), ih solid.2, fits_cons_iff]
      constructor
      · rintro ⟨middle, ⟨front, apart, rfl, takes⟩, behind, apart', rfl, fits⟩
        exact ⟨front ++ behind, by simp [apart, apart'], by simp, front, behind, rfl, takes, fits⟩
      · rintro ⟨whole, apart, rfl, front, behind, rfl, takes, fits⟩
        rw [List.mem_append, not_or] at apart
        exact ⟨behind ++ rest, ⟨front, apart.1, by simp, takes⟩, behind, apart.2, rfl, fits⟩

/-- Unless the pattern ends there, the next thing that is taken behind a segment is a slash. -/
theorem head?_of_taken {segments : List (List Char)} {separator : Token}
    (inner : separator = .literal '/' ∨ separator = .between) {text : List UInt8}
    (taken : [] ∈ sequenceRests (tokensBehind separator segments) text) :
    text = [] ∨ text.head? = some slash := by
  induction segments generalizing separator with
  | nil =>
      rw [tokensBehind, sequenceRests, List.mem_singleton] at taken
      exact .inl taken.symm
  | cons s more ih =>
      have last : withStars separator true = .trailing := by rcases inner with rfl | rfl <;> rfl
      have going : withStars separator false = .between := by rcases inner with rfl | rfl <;> rfl
      rw [tokensBehind, last, going] at taken
      split at taken
      · split at taken
        · rcases List.mem_flatMap.1 taken with ⟨rest, mem, -⟩
          exact .inr (head?_of_mem_rests (.inr (.inr rfl)) mem)
        · exact ih (.inr rfl) taken
      · rcases List.mem_flatMap.1 taken with ⟨rest, mem, -⟩
        exact .inr (head?_of_mem_rests (inner.imp_right .inl) mem)

/-- Two texts without a slash are the same if what follows begins with a slash or is nothing. -/
theorem front_eq {front part rest more : List UInt8} (apart : slash ∉ front) (solid : slash ∉ part)
    (ended : rest = [] ∨ rest.head? = some slash) (ended' : more = [] ∨ more.head? = some slash)
    (same : front ++ rest = part ++ more) : front = part ∧ rest = more := by
  induction front generalizing part with
  | nil =>
      cases part with
      | nil => exact ⟨rfl, same⟩
      | cons b part =>
          have head : rest = b :: (part ++ more) := same
          have stop : b = slash := by simpa [head] using ended
          exact absurd (stop ▸ List.mem_cons_self) solid
  | cons c front ih =>
      cases part with
      | nil =>
          have head : c :: (front ++ rest) = more := same
          have stop : c = slash := by simpa [← head] using ended'
          exact absurd (stop ▸ List.mem_cons_self) apart
      | cons b part =>
          rcases List.cons.inj same with ⟨rfl, tail⟩
          rcases ih (fun mem => apart (List.mem_cons_of_mem c mem))
            (fun mem => solid (List.mem_cons_of_mem c mem)) tail with ⟨rfl, rest⟩
          exact ⟨rfl, rest⟩

/-- The tokens of an ordinary segment take one segment of a path. -/
theorem takes_segment {s : List Char} (ordinary : '/' ∉ s) (more : List (List Char))
    {b : List UInt8} (solid : slash ∉ b) (path : List (List UInt8)) :
    [] ∈ sequenceRests (s.map charToken ++ tokensBehind (.literal '/') more)
        (b ++ behind slash path) ↔
      Fits s b ∧ [] ∈ sequenceRests (tokensBehind (.literal '/') more) (behind slash path) := by
  have ended : behind slash path = [] ∨ (behind slash path).head? = some slash := by
    cases path with
    | nil => exact .inl rfl
    | cons b path => exact .inr rfl
  rw [sequenceRests_append, List.mem_flatMap]
  simp only [mem_rests_segment ordinary]
  constructor
  · rintro ⟨rest, ⟨front, apart, same, fits⟩, taken⟩
    rcases front_eq apart solid (head?_of_taken (.inl rfl) taken) ended same.symm with ⟨rfl, rfl⟩
    exact ⟨fits, taken⟩
  · rintro ⟨fits, taken⟩
    exact ⟨_, ⟨b, solid, rfl, fits⟩, taken⟩

/-- What is left after a slash in a path begins with one of its segments. -/
theorem mem_afterSlashes_behind {path : List (List UInt8)} (solid : ∀ b ∈ path, slash ∉ b)
    {rest : List UInt8} :
    rest ∈ afterSlashes (behind slash path) ↔
      ∃ front b after, path = front ++ b :: after ∧ rest = b ++ behind slash after := by
  induction path with
  | nil => simp [behind, afterSlashes]
  | cons b path ih =>
      have whole : behind slash (b :: path) = slash :: (b ++ behind slash path) := rfl
      rw [whole, afterSlashes, if_pos rfl, afterSlashes_append (solid b List.mem_cons_self),
        List.mem_cons, ih fun c hc => solid c (List.mem_cons_of_mem b hc)]
      constructor
      · rintro (rfl | ⟨front, c, after, rfl, rfl⟩)
        · exact ⟨[], b, path, rfl, rfl⟩
        · exact ⟨b :: front, c, after, rfl, rfl⟩
      · rintro ⟨front, c, after, shape, rfl⟩
        cases front with
        | nil =>
            rcases List.cons.inj shape with ⟨rfl, rfl⟩
            exact .inl rfl
        | cons d front => exact .inr ⟨front, c, after, (List.cons.inj shape).2, rfl⟩

/-- An ordinary segment behind a double star takes any segment of the path. -/
theorem takes_across {s : List Char} (ordinary : '/' ∉ s) (single : s ≠ stars)
    {more : List (List Char)} {path : List (List UInt8)} (solid : ∀ b ∈ path, slash ∉ b)
    (further : ∀ rest, (∀ b ∈ rest, slash ∉ b) →
      ([] ∈ sequenceRests (tokensBehind (.literal '/') more) (behind slash rest) ↔
        Leads more rest)) :
    [] ∈ (afterSlashes (behind slash path)).flatMap
        (sequenceRests (s.map charToken ++ tokensBehind (.literal '/') more)) ↔
      Leads (stars :: s :: more) path := by
  rw [leads_across_iff (List.cons_ne_nil s more), List.mem_flatMap]
  simp only [mem_afterSlashes_behind solid, leads_cons_iff single]
  constructor
  · rintro ⟨_, ⟨front, b, after, rfl, rfl⟩, taken⟩
    have inside : ∀ c ∈ b :: after, slash ∉ c := fun c hc =>
      solid c (List.mem_append_right front hc)
    rcases (takes_segment ordinary more (inside b List.mem_cons_self) after).1 taken with
      ⟨fits, rest⟩
    exact ⟨front, b :: after, rfl, b, after, rfl, fits,
      (further after fun c hc => inside c (List.mem_cons_of_mem b hc)).1 rest⟩
  · rintro ⟨front, _, rfl, b, after, rfl, fits, leads⟩
    have inside : ∀ c ∈ b :: after, slash ∉ c := fun c hc =>
      solid c (List.mem_append_right front hc)
    exact ⟨_, ⟨front, b, after, rfl, rfl⟩,
      (takes_segment ordinary more (inside b List.mem_cons_self) after).2
        ⟨fits, (further after fun c hc => inside c (List.mem_cons_of_mem b hc)).2 leads⟩⟩

/-- Behind a slash the tokens of segments take the paths that the segments lead to, and behind a
double star those that they lead to behind a double star. -/
theorem takes_behind {segments : List (List Char)} (valid : ∀ s ∈ segments, IsSegment s) :
    ∀ path : List (List UInt8), (∀ b ∈ path, slash ∉ b) →
      ([] ∈ sequenceRests (tokensBehind (.literal '/') segments) (behind slash path) ↔
        Leads segments path) ∧
      (segments ≠ [] →
        ([] ∈ sequenceRests (tokensBehind .between segments) (behind slash path) ↔
          Leads (stars :: segments) path)) := by
  induction segments with
  | nil =>
      intro path _
      refine ⟨?_, fun filled => absurd rfl filled⟩
      rw [tokensBehind, sequenceRests, List.mem_singleton, leads_nil_iff]
      cases path <;> simp [behind]
  | cons s more ih =>
      intro path solid
      have rest := ih fun t ht => valid t (List.mem_cons_of_mem s ht)
      by_cases whole : s = stars
      · -- a double star turns the slash before it into itself
        subst whole
        rw [leads_stars_stars]
        have same : tokensBehind .between (stars :: more) =
            tokensBehind (.literal '/') (stars :: more) := rfl
        have taken : [] ∈ sequenceRests (tokensBehind (.literal '/') (stars :: more))
            (behind slash path) ↔ Leads (stars :: more) path := by
          by_cases last : more = []
          · rw [tokensBehind, if_pos rfl, if_pos last, last, leads_stars_iff, sequenceRests_single]
            cases path with
            | nil => simp [behind, withStars, Token.rests]
            | cons b path => simp [behind, withStars, Token.rests, mem_endings]
          · rw [tokensBehind, if_pos rfl, if_neg last]
            exact (rest path solid).2 last
        exact ⟨taken, fun _ => same ▸ taken⟩
      · rcases (valid s List.mem_cons_self).resolve_left whole with ⟨-, characters, -⟩
        have ordinary : '/' ∉ s := fun mem => characters '/' mem List.mem_cons_self
        have further := fun rest' solid' => (rest rest' solid').1
        rw [tokensBehind, tokensBehind, if_neg whole, if_neg whole, List.cons_append,
          List.cons_append, sequenceRests, sequenceRests]
        constructor
        · rw [leads_cons_iff whole]
          cases path with
          | nil => simp [behind, rests_slash_nil]
          | cons b path =>
              have split : behind slash (b :: path) = slash :: (b ++ behind slash path) := rfl
              have inside : ∀ c ∈ path, slash ∉ c := fun c hc =>
                solid c (List.mem_cons_of_mem b hc)
              rw [split, rests_slash, List.flatMap_singleton,
                takes_segment ordinary more (solid b List.mem_cons_self) path,
                further path inside]
              simp
        · intro _
          rw [← takes_across ordinary whole solid further]
          cases path with
          | nil => simp [behind, Token.rests, afterSlashes]
          | cons b path =>
              have split : behind slash (b :: path) = slash :: (b ++ behind slash path) := rfl
              rw [split, rests_between]

/-- Behind a double star in front, the tokens of segments take the paths that the segments lead
to. -/
theorem accepts_leading {segments : List (List Char)} (valid : ∀ s ∈ segments, IsSegment s)
    (filled : segments ≠ []) {path : List (List UInt8)} (solid : ∀ b ∈ path, slash ∉ b)
    (reached : path ≠ []) :
    accepts (tokensBehind .leading segments) (joined slash path) = true ↔
      Leads (stars :: segments) path := by
  induction segments with
  | nil => exact absurd rfl filled
  | cons s more ih =>
      have tail : ∀ t ∈ more, IsSegment t := fun t ht => valid t (List.mem_cons_of_mem s ht)
      by_cases whole : s = stars
      · subst whole
        rw [leads_stars_stars, tokensBehind, if_pos rfl]
        by_cases last : more = []
        · rw [if_pos last, last, leads_stars_iff, accepts_iff]
          simp [withStars, isEverything, reached]
        · rw [if_neg last]
          exact ih tail last
      · rcases (valid s List.mem_cons_self).resolve_left whole with ⟨nonempty, characters, -⟩
        have ordinary : '/' ∉ s := fun mem => characters '/' mem List.mem_cons_self
        have further : isEverything (.leading :: (s.map charToken ++
            tokensBehind (.literal '/') more)) = false := by
          cases s with
          | nil => exact absurd rfl nonempty
          | cons c s => rfl
        rw [tokensBehind, if_neg whole, List.cons_append, accepts_iff, further, sequenceRests,
          rests_leading, ← behind_eq slash reached]
        simp only [Bool.false_eq_true, false_or]
        exact takes_across ordinary whole solid fun rest solid' =>
          (takes_behind tail rest solid').1

/-- A pattern takes a path if and only if its segments lead to those of the path. -/
theorem accepts_joined {segments : List (List Char)} (valid : ∀ s ∈ segments, IsSegment s)
    {b : List UInt8} {path : List (List UInt8)} (solid : ∀ c ∈ b :: path, slash ∉ c)
    (filled : segments ≠ []) :
    accepts (patternTokens segments) (joined slash (b :: path)) = true ↔
      Leads segments (b :: path) := by
  cases segments with
  | nil => exact absurd rfl filled
  | cons s more =>
      have tail : ∀ t ∈ more, IsSegment t := fun t ht => valid t (List.mem_cons_of_mem s ht)
      by_cases whole : s = stars
      · subst whole
        rw [patternTokens, if_pos rfl]
        by_cases last : more = []
        · rw [if_pos last, last, leads_stars_iff, accepts_iff]
          simp [isEverything]
        · rw [if_neg last]
          exact accepts_leading tail last solid (List.cons_ne_nil b path)
      · rcases (valid s List.mem_cons_self).resolve_left whole with ⟨nonempty, characters, -⟩
        have ordinary : '/' ∉ s := fun mem => characters '/' mem List.mem_cons_self
        have further : isEverything (s.map charToken ++ tokensBehind (.literal '/') more) =
            false := by
          cases s with
          | nil => exact absurd rfl nonempty
          | cons c s => exact isEverything_charToken c _
        have inside : ∀ c ∈ path, slash ∉ c := fun c hc => solid c (List.mem_cons_of_mem b hc)
        rw [patternTokens, if_neg whole, accepts_iff, further, joined,
          takes_segment ordinary more (solid b List.mem_cons_self) path,
          (takes_behind tail path inside).1, leads_cons_iff whole]
        simp

end Glob
end ClientBoundary
