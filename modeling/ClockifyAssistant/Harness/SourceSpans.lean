import ClockifyAssistant.Lib.Checked
import ClockifyAssistant.Lib.CodeUnits
import ClockifyAssistant.Schema

/-!
Source spans: byte offsets into the UTF-8 encoding of an authored text, with the
text they claim to cut out. The text may hold lone surrogates, which the encoder
replaces. The decoder drops a leading byte order mark, and a span that starts
with one is refused because its bytes no longer add up.
-/
namespace ClockifyAssistant

open Lib

namespace SourceSpans

def unitChar (u : UInt16) : Char :=
  if CodeUnits.isLead u || CodeUnits.isTrail u then '\ufffd' else .ofNat u.toNat

def pairChar (u v : UInt16) : Char :=
  .ofNat (0x10000 + (u.toNat - 0xd800) * 0x400 + (v.toNat - 0xdc00))

def codePoints : CodeUnits → List Char
  | [] => []
  | [u] => [unitChar u]
  | u :: v :: rest =>
      if CodeUnits.isPair u v then pairChar u v :: codePoints rest
      else unitChar u :: codePoints (v :: rest)

def wellFormed (text : CodeUnits) : String := .ofList (codePoints text)

/-- `Buffer.from(text, "utf8")` -/
def bufferFrom (text : CodeUnits) : ByteArray := (wellFormed text).toByteArray

def byteOrderMark : Char := '\ufeff'

def dropByteOrderMark (text : String) : String :=
  match text.toList with
  | [] => text
  | c :: rest => if c = byteOrderMark then .ofList rest else text

/-- `new TextDecoder("utf-8", { fatal: true }).decode(bytes)` -/
def decodeFatal (bytes : ByteArray) : Option String :=
  (String.fromUTF8? bytes).map dropByteOrderMark

structure Utf8SourceSpan where
  startByte : Rat
  endByte : Rat
  text : CodeUnits

/-- A number that `Number.isSafeInteger` accepts and that is not negative. -/
def offset? (n : Rat) : Option Nat :=
  if n.den = 1 ∧ 0 ≤ n.num ∧ n.num ≤ maxSafeInteger then some n.num.toNat else none

structure Offsets where
  startByte : Nat
  endByte : Nat

def parseSpan (span : Utf8SourceSpan) : Except String Offsets :=
  match offset? span.startByte, offset? span.endByte with
  | some startByte, some endByte =>
      if endByte ≤ startByte ∨ span.text = [] then throw "intent_capability_span_invalid"
      else return { startByte, endByte }
  | _, _ => throw "intent_capability_span_invalid"

def validateUtf8SourceSpan (authoredSource : CodeUnits) (span : Utf8SourceSpan) :
    Except String String := do
  let { startByte, endByte } ← parseSpan span
  let bytes := bufferFrom authoredSource
  if bytes.size < endByte then throw "intent_capability_span_range"
  match decodeFatal (bytes.extract startByte endByte) with
  | none => throw "intent_capability_span_boundary"
  | some decoded =>
      if decoded.utf8ByteSize ≠ endByte - startByte then throw "intent_capability_span_boundary"
      if CodeUnits.ofString decoded ≠ span.text then throw "intent_capability_span_text_mismatch"
      return decoded

/-- The span cuts `text` out of the source, from one code point boundary to a later one. -/
structure Cuts (authoredSource : CodeUnits) (span : Utf8SourceSpan) (startByte endByte : Nat)
    (text : String) : Prop where
  start : span.startByte = startByte
  stop : span.endByte = endByte
  safe : endByte ≤ maxSafeInteger
  ordered : startByte < endByte
  inRange : endByte ≤ (bufferFrom authoredSource).size
  startBoundary : String.Pos.Raw.IsValid (wellFormed authoredSource) ⟨startByte⟩
  stopBoundary : String.Pos.Raw.IsValid (wellFormed authoredSource) ⟨endByte⟩
  decodes : (bufferFrom authoredSource).extract startByte endByte = text.toByteArray
  claimed : span.text = CodeUnits.ofString text

theorem offset?_eq_some {n : Rat} {k : Nat} : offset? n = some k ↔ n = k ∧ k ≤ maxSafeInteger := by
  unfold offset?
  constructor
  · intro h
    split at h
    · next hn =>
        obtain ⟨hden, hnonneg, hsafe⟩ := hn
        have hk : n.num = k := by rw [← Option.some.inj h, Int.toNat_of_nonneg hnonneg]
        refine ⟨?_, by omega⟩
        rw [← Rat.coe_int_num_of_den_eq_one hden, hk]
        rfl
    · cases h
  · rintro ⟨rfl, hsafe⟩
    have hnum : (k : Rat).num = k := rfl
    rw [if_pos ⟨rfl, by omega, by omega⟩, hnum, Int.toNat_natCast]

theorem fromUTF8?_eq_some {bytes : ByteArray} {text : String} :
    String.fromUTF8? bytes = some text ↔ bytes = text.toByteArray := by
  unfold String.fromUTF8?
  constructor
  · intro h
    split at h
    · next hvalid =>
        rw [← Option.some.inj h]
        rfl
    · cases h
  · rintro rfl
    rw [dif_pos text.isValidUTF8]
    rfl

/-- The decoder keeps the length exactly when no leading mark was dropped. -/
theorem decodeFatal_whole {bytes : ByteArray} {text : String} :
    decodeFatal bytes = some text ∧ text.utf8ByteSize = bytes.size ↔
      bytes = text.toByteArray ∧ text.toList.head? ≠ some byteOrderMark := by
  unfold decodeFatal
  constructor
  · rintro ⟨hdecoded, hsize⟩
    obtain ⟨whole, hwhole, rfl⟩ := Option.map_eq_some_iff.mp hdecoded
    have hbytes := fromUTF8?_eq_some.mp hwhole
    cases hlist : whole.toList with
    | nil =>
      have hkept : dropByteOrderMark whole = whole := by simp [dropByteOrderMark, hlist]
      rw [hkept]
      exact ⟨hbytes, by simp [hlist]⟩
    | cons c rest =>
      by_cases hc : c = byteOrderMark
      · exfalso
        have hdropped : dropByteOrderMark whole = .ofList rest := by
          simp [dropByteOrderMark, hlist, hc]
        have hlong : whole.utf8ByteSize = byteOrderMark.utf8Size +
            (String.ofList rest).utf8ByteSize := by
          have hwhole : whole = .ofList (byteOrderMark :: rest) := by
            rw [← hc, ← hlist, String.ofList_toList]
          simp [hwhole]
        rw [hdropped, hbytes, String.size_toByteArray, hlong] at hsize
        have hpos := byteOrderMark.utf8Size_pos
        omega
      · have hkept : dropByteOrderMark whole = whole := by
          simp [dropByteOrderMark, hlist, hc]
        rw [hkept]
        exact ⟨hbytes, by simp [hlist, hc]⟩
  · rintro ⟨rfl, hhead⟩
    rw [fromUTF8?_eq_some.mpr rfl, Option.map_some]
    refine ⟨congrArg some ?_, by simp⟩
    unfold dropByteOrderMark
    cases hlist : text.toList with
    | nil => rfl
    | cons c rest => exact if_neg fun hc => hhead (by simp [hlist, hc])

theorem parseSpan_eq_ok {span : Utf8SourceSpan} {offsets : Offsets} : parseSpan span = .ok offsets ↔
      offset? span.startByte = some offsets.startByte ∧
        offset? span.endByte = some offsets.endByte ∧
        offsets.startByte < offsets.endByte ∧ span.text ≠ [] := by
  unfold parseSpan
  constructor
  · intro h
    split at h
    · next startByte endByte hstart hstop =>
        split at h
        · cases h
        · next hordered =>
            cases h
            exact ⟨hstart, hstop, Nat.lt_of_not_le fun h => hordered (.inl h),
              fun hnil => hordered (.inr hnil)⟩
    · cases h
  · rintro ⟨hstart, hstop, hordered, htext⟩
    rw [hstart, hstop]
    exact if_neg (not_or.mpr ⟨by omega, htext⟩)

theorem validateUtf8SourceSpan_eq_ok {authoredSource : CodeUnits} {span : Utf8SourceSpan}
    {text : String} : validateUtf8SourceSpan authoredSource span = .ok text ↔
      ∃ offsets, parseSpan span = .ok offsets ∧ offsets.endByte ≤ (bufferFrom authoredSource).size ∧
        decodeFatal ((bufferFrom authoredSource).extract offsets.startByte offsets.endByte) =
          some text ∧ text.utf8ByteSize = offsets.endByte - offsets.startByte ∧
        CodeUnits.ofString text = span.text := by
  unfold validateUtf8SourceSpan
  rw [Lib.Checked.bind_eq_ok]
  refine exists_congr fun ⟨startByte, endByte⟩ => and_congr_right fun _ => ?_
  constructor
  · intro h
    dsimp only at h
    split at h
    · cases h
    · next hrange =>
        split at h
        · cases h
        · next decoded hdecoded =>
            split at h
            · cases h
            · next hlength =>
                split at h
                · cases h
                · next htext =>
                    cases h
                    exact ⟨Nat.not_lt.mp hrange, hdecoded, of_not_not hlength, of_not_not htext⟩
  · rintro ⟨hrange, hdecoded, hlength, htext⟩
    dsimp only at hrange hdecoded hlength ⊢
    rw [if_neg (Nat.not_lt.mpr hrange), hdecoded]
    dsimp only
    rw [if_neg (not_not.mpr hlength), if_neg (not_not.mpr htext)]
    rfl

theorem ofString_eq_nil {text : String} (h : CodeUnits.ofString text = []) :
    text.utf8ByteSize = 0 := by
  have hchar : ∀ c, CodeUnits.ofChar c ≠ [] := by
    intro c
    unfold CodeUnits.ofChar
    split <;> exact List.cons_ne_nil _ _
  cases hlist : text.toList with
  | nil =>
    rw [show text = "" by rw [← text.ofList_toList, hlist]]
    rfl
  | cons c rest =>
    rw [CodeUnits.ofString, hlist, List.flatMap_cons] at h
    exact absurd (List.append_eq_nil_iff.mp h).1 (hchar c)

/-- Accepted is what the span cuts out, unless it starts with a byte order mark. -/
theorem validateUtf8SourceSpan_accepts (authoredSource : CodeUnits) (span : Utf8SourceSpan)
    (text : String) : validateUtf8SourceSpan authoredSource span = .ok text ↔
      (∃ startByte endByte, Cuts authoredSource span startByte endByte text) ∧
        text.toList.head? ≠ some byteOrderMark := by
  have hsize : ∀ {a b : Nat}, b ≤ (bufferFrom authoredSource).size →
      ((bufferFrom authoredSource).extract a b).size = b - a := by
    intro a b hb
    rw [ByteArray.size_extract, Nat.min_eq_left hb]
  rw [validateUtf8SourceSpan_eq_ok]
  constructor
  · rintro ⟨⟨a, b⟩, hparsed, hrange, hdecoded, hlength, hclaimed⟩
    obtain ⟨hstart, hstop, hordered, -⟩ := parseSpan_eq_ok.mp hparsed
    obtain ⟨hbytes, hhead⟩ := decodeFatal_whole.mp ⟨hdecoded, hlength.trans (hsize hrange).symm⟩
    obtain ⟨hstart, -⟩ := offset?_eq_some.mp hstart
    obtain ⟨hstop, hsafe⟩ := offset?_eq_some.mp hstop
    dsimp only at hordered hrange hbytes hstart hstop hsafe
    have hvalid : ((bufferFrom authoredSource).extract a b).IsValidUTF8 :=
      hbytes ▸ text.isValidUTF8
    have hboundaries := (String.Pos.Raw.isValidUTF8_extract_iff ⟨a⟩ ⟨b⟩ (by exact hordered.le)
      (by exact hrange)).mp hvalid
    have hdiffer : (⟨a⟩ : String.Pos.Raw) ≠ ⟨b⟩ := by
      intro hsame
      have : a = b := congrArg String.Pos.Raw.byteIdx hsame
      omega
    obtain ⟨hfrom, hto⟩ := hboundaries.resolve_left hdiffer
    exact ⟨⟨a, b, ⟨hstart, hstop, hsafe, hordered, hrange, hfrom, hto, hbytes, hclaimed.symm⟩⟩,
      hhead⟩
  · rintro ⟨⟨a, b, hcuts⟩, hhead⟩
    have hwhole := decodeFatal_whole.mpr ⟨hcuts.decodes, hhead⟩
    have hlength := hwhole.2.trans (hsize hcuts.inRange)
    have hsafe := hcuts.safe
    have hordered := hcuts.ordered
    have hstartSafe : a ≤ maxSafeInteger := by omega
    have htext : span.text ≠ [] := by
      intro hnil
      have := ofString_eq_nil (hcuts.claimed ▸ hnil)
      omega
    have hparsed : parseSpan span = .ok ⟨a, b⟩ := parseSpan_eq_ok.mpr
      ⟨offset?_eq_some.mpr ⟨hcuts.start, hstartSafe⟩, offset?_eq_some.mpr ⟨hcuts.stop, hsafe⟩,
        hordered, htext⟩
    exact ⟨⟨a, b⟩, hparsed, hcuts.inRange, hwhole.1, hlength, hcuts.claimed.symm⟩

/-- A claimed text that starts with U+FEFF is refused although the span cuts it out. -/
theorem marked_cut_refused : Cuts [0xfeff, 0x61] ⟨0, 4, [0xfeff, 0x61]⟩ 0 4 "\ufeffa" ∧
      ∀ text, validateUtf8SourceSpan [0xfeff, 0x61] ⟨0, 4, [0xfeff, 0x61]⟩ ≠ .ok text := by
  have hsource : wellFormed [0xfeff, 0x61] = "\ufeffa" := by decide
  have hbytes : bufferFrom [0xfeff, 0x61] = "\ufeffa".toByteArray := congrArg _ hsource
  have hsize : "\ufeffa".utf8ByteSize = 4 := by decide
  have hwhole : "\ufeffa".toByteArray.extract 0 4 = "\ufeffa".toByteArray := by
    rw [← hsize, ← String.size_toByteArray, ByteArray.extract_zero_size]
  constructor
  · refine ⟨rfl, rfl, by decide, by decide, ?_, ?_, ?_, ?_, by decide⟩
    · rw [hbytes, String.size_toByteArray, hsize]
    · exact String.Pos.Raw.isValid_zero
    · rw [hsource]
      exact hsize ▸ String.Pos.Raw.isValid_rawEndPos
    · rw [hbytes, hwhole]
  · intro text haccepted
    obtain ⟨⟨a, b⟩, hparsed, -, hdecoded, hlength, -⟩ := validateUtf8SourceSpan_eq_ok.mp haccepted
    obtain ⟨hstart, hstop, -⟩ := parseSpan_eq_ok.mp hparsed
    cases (offset?_eq_some.mpr ⟨rfl, by decide⟩ : offset? 0 = some 0).symm.trans hstart
    cases (offset?_eq_some.mpr ⟨rfl, by decide⟩ : offset? 4 = some 4).symm.trans hstop
    rw [hbytes, hwhole] at hdecoded
    have hfull : text.utf8ByteSize = "\ufeffa".toByteArray.size := by
      rw [String.size_toByteArray, hsize]
      exact hlength
    obtain ⟨hsame, hhead⟩ := decodeFatal_whole.mp ⟨hdecoded, hfull⟩
    cases String.toByteArray_inj.mp hsame
    exact hhead (by decide)

end SourceSpans

end ClockifyAssistant
