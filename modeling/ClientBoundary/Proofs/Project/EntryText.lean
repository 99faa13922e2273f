import ClientBoundary.Project.Cache
import ClientBoundary.Proofs.Json.Records
import ClientBoundary.Proofs.Rules.Findings
import ClientBoundary.Proofs.Text.ByteOrder

/-!
# Cache entries in files

An entry that is written to a file is read back from its bytes.

- `textOf?_utf8Bytes`: texts are read back from their bytes;
- `CacheEntry.parse?_render`: entries are read back from their text, if the numbers of their
  findings have 32 bits;
- `hashedBytes_injective`, `hashedBytes_eq_iff`: what is digested tells the text under a
  fingerprint, and the fingerprint too if there is no zero in it.
-/

namespace ClientBoundary
namespace Project

open Json (ReadsBack Value mapM_map_of_reads readsBack_list readsBack_nullable readsBack_record
  readsBack_scalar)
open Rules (Finding)

/-! ## Texts and bytes -/

/-- The bytes of a text are the text again. -/
theorem textOf?_utf8Bytes (s : String) : textOf? (Text.utf8Bytes s) = some s := by
  rw [textOf?, Text.toByteArray_utf8Bytes, String.fromUTF8?, dif_pos s.isValidUTF8]
  rfl

/-- What is digested tells the text under a fingerprint. -/
theorem hashedBytes_injective (fingerprint : String) :
    Function.Injective fun source => Cache.hashedBytes source fingerprint := by
  intro s t same
  -- the fingerprint stands in front, and a separator behind it
  have texts := List.append_cancel_left same
  exact Text.utf8Bytes_inj.1 (List.cons.inj texts).2

/-- What stands in front of the first separator, and what behind it. -/
theorem append_separator_inj {α : Type} {separator : α} {front other_front back other_back : List α}
    (plain : separator ∉ front) (other_plain : separator ∉ other_front) :
    front ++ separator :: back = other_front ++ separator :: other_back ↔
      front = other_front ∧ back = other_back := by
  refine ⟨?_, by rintro ⟨rfl, rfl⟩; rfl⟩
  intro same
  -- the longer front has the separator of the shorter one in it
  rcases List.append_eq_append_iff.1 same with ⟨more, rfl, rest⟩ | ⟨more, rfl, rest⟩
  · cases more with
    | nil => exact ⟨(List.append_nil _).symm, (List.cons.inj rest).2⟩
    | cons a more => simp_all
  · cases more with
    | nil => exact ⟨List.append_nil _, (List.cons.inj rest).2.symm⟩
    | cons a more => simp_all

/-- Behind a fingerprint without a zero the first zero is the separator, so what is digested tells
the fingerprint as well. -/
theorem hashedBytes_eq_iff {source fingerprint other_source other_fingerprint : String}
    (plain : '\x00' ∉ fingerprint.toList) (other_plain : '\x00' ∉ other_fingerprint.toList) :
    Cache.hashedBytes source fingerprint = Cache.hashedBytes other_source other_fingerprint ↔
      source = other_source ∧ fingerprint = other_fingerprint := by
  have front := mt (Text.zero_mem_utf8Bytes _).1 plain
  have other_front := mt (Text.zero_mem_utf8Bytes _).1 other_plain
  rw [Cache.hashedBytes, Cache.hashedBytes, append_separator_inj front other_front,
    Text.utf8Bytes_inj, Text.utf8Bytes_inj, and_comm]

/-! ## Records -/

theorem word?_ofNat {n : Nat} (fits : n < UInt32.size) : word? (.ofNat n) = some n :=
  if_pos fits

theorem location?_locationValue {l : Text.Location} (line : l.line < UInt32.size)
    (column : l.column < UInt32.size) : location? (locationValue l) = some l := by
  simp [location?, locationValue, recordFields?, fieldOf?, valuesOf, word?_ofNat line,
    word?_ofNat column]

theorem insertion?_insertionValue {i : Text.Insertion} (offset : i.offset < UInt32.size) :
    insertion? (insertionValue i) = some i := by
  simp [insertion?, insertionValue, recordFields?, fieldOf?, valuesOf, word?_ofNat offset,
    Value.asString?]

theorem fix?_ofOption {fix : Option Text.Insertion}
    (offset : ∀ i, fix = some i → i.offset < UInt32.size) :
    fix? (some (Value.ofOption insertionValue fix)) = some fix := by
  cases fix with
  | none => rfl
  | some i =>
      have read := insertion?_insertionValue (offset i rfl)
      rw [insertionValue] at read
      simp [Value.ofOption, insertionValue, fix?, read]

theorem finding?_findingValue {f : Finding} (fits : f.Fits) :
    finding? (findingValue f) = some f := by
  simp [finding?, findingValue, recordFields?, fieldOf?, valuesOf, Value.asString?,
    location?_locationValue fits.line fits.column, Value.asStrings?_ofStrings,
    fix?_ofOption fits.offset]

theorem CacheEntry.ofValue?_toValue {e : CacheEntry} (fits : ∀ f ∈ e.findings, f.Fits) :
    CacheEntry.ofValue? e.toValue = some e := by
  have read : (e.findings.map findingValue).mapM finding? = some e.findings :=
    mapM_map_of_reads fun f hf => finding?_findingValue (fits f hf)
  have fields : recordFields? ["hash", "findings"] e.toValue =
      some [some (.string e.digest), some (.array (e.findings.map findingValue))] := by
    simp [recordFields?, CacheEntry.toValue, fieldOf?, valuesOf]
  rw [CacheEntry.ofValue?, fields]
  simp only [Value.asString?, Value.asArray?, Option.bind_eq_bind, Option.bind_some, read]
  rfl

/-! ## Entries as text -/

theorem readsBack_string (s : String) : ReadsBack Json.scalar? Value.chars (.string s) :=
  readsBack_scalar trivial

theorem readsBack_ofNat {n : Nat} (fits : n < UInt32.size) :
    ReadsBack Json.scalar? Value.chars (.ofNat n) :=
  readsBack_scalar ⟨n, rfl, Nat.lt_trans fits (by decide)⟩

theorem readsBack_ofStrings (texts : List String) :
    ReadsBack (Json.list? Json.scalar?) Value.chars (.ofStrings texts) := by
  refine readsBack_list ?_
  intro v mem
  rcases List.mem_map.1 mem with ⟨text, -, rfl⟩
  exact readsBack_string text

theorem readsBack_locationValue {l : Text.Location} (line : l.line < UInt32.size)
    (column : l.column < UInt32.size) :
    ReadsBack locationReader Value.chars (locationValue l) := by
  refine readsBack_record ?_
  simp only [List.mem_cons, List.not_mem_nil, or_false, forall_eq_or_imp, forall_eq]
  exact ⟨⟨_, rfl, readsBack_ofNat line⟩, ⟨_, rfl, readsBack_ofNat column⟩⟩

theorem readsBack_insertionValue {i : Text.Insertion} (offset : i.offset < UInt32.size) :
    ReadsBack insertionReader Value.chars (insertionValue i) := by
  refine readsBack_record ?_
  simp only [List.mem_cons, List.not_mem_nil, or_false, forall_eq_or_imp, forall_eq]
  exact ⟨⟨_, rfl, readsBack_ofNat offset⟩, ⟨_, rfl, readsBack_string i.text⟩⟩

theorem readsBack_findingValue {f : Finding} (fits : f.Fits) :
    ReadsBack findingReader Value.chars (findingValue f) := by
  have fix : ReadsBack (Json.nullable? insertionReader) Value.chars
      (.ofOption insertionValue f.fix) := by
    refine readsBack_nullable ?_
    intro i some_
    exact ⟨readsBack_insertionValue (fits.offset i some_), by simp [insertionValue, Value.chars]⟩
  refine readsBack_record ?_
  simp only [List.mem_cons, List.not_mem_nil, or_false, forall_eq_or_imp, forall_eq]
  exact ⟨⟨_, rfl, readsBack_string f.rule⟩, ⟨_, rfl, readsBack_string f.message⟩,
    ⟨_, rfl, readsBack_ofStrings f.causes⟩, ⟨_, rfl, readsBack_string f.file⟩,
    ⟨_, rfl, readsBack_locationValue fits.line fits.column⟩, ⟨_, rfl, fix⟩⟩

theorem CacheEntry.readsBack_toValue {e : CacheEntry} (fits : ∀ f ∈ e.findings, f.Fits) :
    ReadsBack CacheEntry.reader Value.chars e.toValue := by
  have findings : ReadsBack (Json.list? findingReader) Value.chars
      (.array (e.findings.map findingValue)) := by
    refine readsBack_list ?_
    intro v mem
    rcases List.mem_map.1 mem with ⟨f, hf, rfl⟩
    exact readsBack_findingValue (fits f hf)
  refine readsBack_record ?_
  simp only [List.mem_cons, List.not_mem_nil, or_false, forall_eq_or_imp, forall_eq]
  exact ⟨⟨_, rfl, readsBack_string e.digest⟩, ⟨_, rfl, findings⟩⟩

/-- An entry that was written is read back. -/
theorem CacheEntry.parse?_render {e : CacheEntry} (fits : ∀ f ∈ e.findings, f.Fits) :
    CacheEntry.parse? e.render = some e := by
  have document : Json.document? CacheEntry.reader e.render = some e.toValue :=
    (readsBack_toValue fits).document?_eq
  rw [CacheEntry.parse?, document, Option.bind_some, CacheEntry.ofValue?_toValue fits]

/-- Whatever stands under a key that is no field is passed over: here half of a character, and a
number that is too large. -/
example : CacheEntry.parse?
    "\x7b\"hash\":\"\",\"a\":[\"\\ud800\"],\"findings\":[],\"b\":1e999\x7d" = some ⟨"", []⟩ := by
  decide +kernel

end Project
end ClientBoundary
