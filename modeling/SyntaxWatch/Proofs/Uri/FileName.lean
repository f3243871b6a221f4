import Mathlib.Data.List.TakeWhile
import SyntaxWatch.Proofs.Path.Steps
import SyntaxWatch.Workspace

/-!
# The file behind a URI

A file's URI is made from the steps of its path. Nothing is lost on the way: each step can be read
back byte by byte (`decodeBytes_encodeName`), and no encoded step has a slash in it, so it can be seen
where one ends and the next begins. The path that is read back from the URI need not be spelled as the
first one, but it has the same components (`toPath?_of_ofPath`); so two paths have the same URI only if
they have the same components (`components_of_ofPath`).

Whatever goes by the components of a path goes therefore by its URI too. For a workspace this is the
language: a document that is loaded again under another spelling of its path has kept the language that
it would be given now (`Faithful.load`).
-/

set_option autoImplicit false

namespace SyntaxWatch

/-! ## 1. One step, there and back -/

namespace Uri

theorem hexValue?_hexDigit {n : Nat} (hn : n < 16) : hexValue? (hexDigit n) = some n := by
  have hall : ∀ n < 16, hexValue? (hexDigit n) = some n := by decide
  exact hall n hn

/-- A byte that stands for itself is a character of ASCII. -/
theorem encodeChar_of_printed {n : Nat} (hn : n < 0x7F) :
    String.utf8EncodeChar (Char.ofNat n) = [UInt8.ofNat n] := by
  have hall : ∀ n < 0x7F, String.utf8EncodeChar (Char.ofNat n) = [UInt8.ofNat n] := by decide
  exact hall n hn

theorem decodeBytes_cons {c : Char} (hc : c ≠ '%') (rest : List Char) :
    decodeBytes (c :: rest) = String.utf8EncodeChar c ++ decodeBytes rest := by
  rw [decodeBytes]
  rintro a b others rfl
  exact absurd rfl hc

theorem decodeBytes_escape {hi lo : Nat} (hhi : hi < 16) (hlo : lo < 16) (rest : List Char) :
    decodeBytes ('%' :: hexDigit hi :: hexDigit lo :: rest) = UInt8.ofNat (hi * 16 + lo) :: decodeBytes rest := by
  rw [decodeBytes, hexValue?_hexDigit hhi, hexValue?_hexDigit hlo]

/-- What is written as it is, is a character of ASCII and not reserved. -/
theorem not_escaped {b : UInt8} (hb : isEscaped nameReserved b = false) :
    b.toNat < 0x7F ∧ Char.ofNat b.toNat ≠ '%' ∧ Char.ofNat b.toNat ∉ nameReserved := by
  unfold isEscaped at hb
  obtain ⟨hbounds, hfree⟩ := Bool.or_eq_false_iff.mp hb
  obtain ⟨_, hupper⟩ := Bool.or_eq_false_iff.mp hbounds
  have hnot : Char.ofNat b.toNat ∉ nameReserved := by simpa using hfree
  refine ⟨?_, fun h => hnot (h ▸ by decide), hnot⟩
  have hlt : b < 0x7F := by simpa using hupper
  exact UInt8.lt_iff_toNat_lt.mp hlt

theorem decodeBytes_encodeByte (b : UInt8) (rest : List Char) :
    decodeBytes (encodeByte nameReserved b ++ rest) = b :: decodeBytes rest := by
  have hbyte : b.toNat < 256 := b.toNat_lt
  unfold encodeByte
  by_cases hb : isEscaped nameReserved b = true
  · rw [if_pos hb]
    have hback : b.toNat / 16 * 16 + b.toNat % 16 = b.toNat := by omega
    have hhi : b.toNat / 16 < 16 := by omega
    have hlo : b.toNat % 16 < 16 := by omega
    have hread := decodeBytes_escape hhi hlo rest
    rw [hback, UInt8.ofNat_toNat] at hread
    exact hread
  · obtain ⟨hprinted, hpercent, _⟩ := not_escaped (Bool.eq_false_iff.mpr hb)
    rw [if_neg hb, List.singleton_append, decodeBytes_cons hpercent, encodeChar_of_printed hprinted,
      UInt8.ofNat_toNat, List.singleton_append]

/-- **A name is read back** from what is written for it. -/
theorem decodeBytes_encodeName (name : List UInt8) : decodeBytes (encodeName name) = name := by
  induction name with
  | nil => rfl
  | cons b name ih =>
    unfold encodeName at *
    rw [List.flatMap_cons, decodeBytes_encodeByte, ih]

/-- What is written for a name: percent signs, digits, and what is not reserved. -/
theorem mem_encodeName {name : List UInt8} {c : Char} (hc : c ∈ encodeName name) :
    c = '%' ∨ (∃ n < 16, c = hexDigit n) ∨ c ∉ nameReserved := by
  obtain ⟨b, _, hb⟩ := List.mem_flatMap.mp hc
  have hbyte : b.toNat < 256 := b.toNat_lt
  unfold encodeByte at hb
  split at hb
  · rcases List.mem_cons.mp hb with h | hb
    · exact .inl h
    rcases List.mem_cons.mp hb with h | hb
    · exact .inr (.inl ⟨_, by omega, h⟩)
    · exact .inr (.inl ⟨_, by omega, List.mem_singleton.mp hb⟩)
  · next hplain =>
    rw [List.mem_singleton.mp hb]
    exact .inr (.inr (not_escaped (Bool.eq_false_iff.mpr hplain)).2.2)

/-- What ends a step, or the path of a URI, is never written for a name. -/
theorem not_mem_encodeName {c : Char} (hc : c ∈ ['/', '?', '#']) (name : List UInt8) :
    c ∉ encodeName name := by
  have hall : c ≠ '%' ∧ (∀ n < 16, c ≠ hexDigit n) ∧ c ∈ nameReserved := by
    obtain rfl | rfl | rfl : c = '/' ∨ c = '?' ∨ c = '#' := by simpa using hc
    all_goals decide
  obtain ⟨hpercent, hdigit, hreserved⟩ := hall
  intro hmem
  rcases mem_encodeName hmem with h | ⟨n, hn, h⟩ | h
  · exact hpercent h
  · exact hdigit n hn h
  · exact h hreserved

end Uri

/-! ## 2. All steps -/

namespace Uri

open SyntaxWatch.Path (Component)

/-- What stands in a file's URI behind the scheme: its steps behind slashes, or one slash for the root. -/
def written (steps : List Component) : List Char :=
  '/' :: Text.join '/' (steps.map fun s => encodeName s.bytes)

theorem ofPath_of_isAbsolute {p : Path} (hp : p.isAbsolute = true) :
    ofPath p = .ok ⟨"file://" ++ String.ofList (written p.steps)⟩ := by
  unfold ofPath
  rw [if_pos hp, Path.components_of_isAbsolute hp, List.drop_one, List.tail_cons]
  cases hsteps : p.steps with
  | nil => rfl
  | cons s others =>
    have hne : (s :: others).map (fun s => encodeName s.bytes) ≠ [] := by simp
    have hslashes := Text.flatMap_sep '/' hne
    rw [List.flatMap_map] at hslashes
    simp only [written, hslashes]

theorem ofPath_of_not_isAbsolute {p : Path} (hp : p.isAbsolute = false) : ofPath p = .error ⟨p⟩ := by
  unfold ofPath
  rw [if_neg (Bool.eq_false_iff.mp hp)]

theorem ofPath_congr {p q : Path} (hp : p.isAbsolute = true) (hq : q.isAbsolute = true)
    (h : p.components = q.components) : ofPath p = ofPath q := by
  rw [Path.components_of_isAbsolute hp, Path.components_of_isAbsolute hq] at h
  rw [ofPath_of_isAbsolute hp, ofPath_of_isAbsolute hq, (List.cons.inj h).2]

/-! ## 3. The way back -/

/-- Neither a query nor a fragment begins in what is written. -/
theorem not_mem_written {c : Char} (hc : c ∈ ['?', '#']) (steps : List Component) : c ∉ written steps := by
  have hslash : c ≠ '/' := by
    rintro rfl
    exact absurd hc (by decide)
  intro hmem
  rcases List.mem_cons.mp hmem with h | hmem
  · exact hslash h
  rcases Text.mem_join hmem with h | ⟨part, hpart, hc'⟩
  · exact hslash h
  · obtain ⟨s, _, rfl⟩ := List.mem_map.mp hpart
    exact not_mem_encodeName (List.mem_cons_of_mem '/' hc) s.bytes hc'

/-- A file's URI names no host. -/
theorem hostAndPath_written (steps : List Component) :
    hostAndPath ("file://".toList ++ written steps) = ([], written steps) := by
  have hbare : ("file://".toList ++ written steps).takeWhile (fun c => c ≠ '?' ∧ c ≠ '#')
      = "file://".toList ++ written steps := by
    rw [List.takeWhile_eq_self_iff]
    intro c hc
    rw [decide_eq_true_eq]
    rcases List.mem_append.mp hc with hc | hc
    · have hscheme : ∀ c ∈ "file://".toList, c ≠ '?' ∧ c ≠ '#' := by simp
      exact hscheme c hc
    · constructor
      · rintro rfl
        exact not_mem_written (by decide) steps hc
      · rintro rfl
        exact not_mem_written (by decide) steps hc
  unfold hostAndPath
  rw [hbare]
  rfl

theorem decoded_written (steps : List Component) :
    ((Text.pieces '/' ((written steps).drop 1)).flatMap fun part => Path.slash :: decodeBytes part)
      = (Path.ofRootSteps steps).bytes := by
  show ((Text.pieces '/' (Text.join '/' (steps.map fun s => encodeName s.bytes))).flatMap _) = _
  cases steps with
  | nil => rfl
  | cons s others =>
    rw [Text.pieces_join (by simp)]
    · have hne : (s :: others).map Component.bytes ≠ [] := by simp
      have hslashes := Text.flatMap_sep Path.slash hne
      rw [List.flatMap_map] at hslashes
      rw [List.flatMap_map]
      simp only [decodeBytes_encodeName, hslashes]
      rfl
    · intro part hpart
      obtain ⟨t, _, rfl⟩ := List.mem_map.mp hpart
      exact not_mem_encodeName (by decide) t.bytes

/-- **The path is read back from its URI**, step by step. -/
theorem toPath?_of_ofPath {p : Path} {u : Uri} (hu : ofPath p = .ok u) :
    ∃ back, u.toPath? = some back ∧ back.isAbsolute = true ∧ back.components = p.components := by
  have hp : p.isAbsolute = true := by
    by_contra hno
    rw [ofPath_of_not_isAbsolute (Bool.eq_false_iff.mpr hno)] at hu
    cases hu
  rw [ofPath_of_isAbsolute hp] at hu
  cases hu
  have htext : ("file://" ++ String.ofList (written p.steps)).toList
      = "file://".toList ++ written p.steps := by
    rw [String.toList_append]
    exact congrArg _ String.toList_ofList
  have habsolute := Path.isAbsolute_ofRootSteps p.steps
  have hcomponents : (Path.ofRootSteps p.steps).components = p.components := by
    rw [Path.components_ofRootSteps fun s => Path.isStep_of_mem_steps, Path.components_of_isAbsolute hp]
  unfold toPath?
  simp only [htext, hostAndPath_written, decoded_written]
  by_cases hdrive : endsInDrive (Path.ofRootSteps p.steps).bytes = true
  · -- a drive gets a slash behind it, which is no step
    refine ⟨⟨(Path.ofRootSteps p.steps).bytes ++ [Path.slash]⟩, by simp [written, hdrive], rfl, ?_⟩
    rw [Path.components_append_slash habsolute, hcomponents]
  · exact ⟨Path.ofRootSteps p.steps, by simp [written, hdrive], habsolute, hcomponents⟩

/-- **Two paths with one URI have the same components.** -/
theorem components_of_ofPath {p q : Path} {u : Uri} (hp : ofPath p = .ok u) (hq : ofPath q = .ok u) :
    p.components = q.components := by
  obtain ⟨back, hback, _, hcomponents⟩ := toPath?_of_ofPath hp
  obtain ⟨back', hback', _, hcomponents'⟩ := toPath?_of_ofPath hq
  obtain rfl : back = back' := Option.some.inj (hback.symm.trans hback')
  exact hcomponents.symm.trans hcomponents'

end Uri

/-! ## 4. The languages of a workspace -/

namespace Workspace

variable {w : Workspace} {files : FileTree} {p q : Path}

theorem languageOf_congr (w : Workspace) (h : p.components = q.components) :
    w.languageOf p = w.languageOf q := by
  unfold languageOf Path.extension? Path.fileName?
  rw [h]

/-- Every document has the language that its path has. -/
def Faithful (w : Workspace) : Prop :=
  ∀ d ∈ w.documents, ∃ p, Uri.ofPath p = .ok d.uri ∧ d.language = w.languageOf p

/-- What comes of loading a file: a document with its URI and its language, in a workspace that is
otherwise as it was. -/
structure Loaded (w : Workspace) (p : Path) (next : Workspace) (document : DocumentRef) : Prop where
  root : next.root = w.root
  language : next.language = w.language
  faithful : next.Faithful
  uri : Uri.ofPath p = .ok document.uri
  spoken : document.language = w.languageOf p

theorem number?_eq_some {uri : Uri} {n : Nat} (h : w.number? uri = some n) :
    ∃ d, w.documents[n]? = some d ∧ d.uri = uri := by
  obtain ⟨hlt, huri, _⟩ := List.findIdx?_eq_some_iff_getElem.mp h
  exact ⟨_, List.getElem?_eq_getElem hlt, by simpa using huri⟩

/-- A file that can be loaded is put where its document was, or behind all others. -/
theorem load_cases {next : Workspace} {document : DocumentRef} (hload : w.load files p = .ok (next, document)) :
    ∃ uri text, Uri.ofPath p = .ok uri ∧
      (next = { w with documents := w.documents ++ [.ofText uri (w.languageOf p) text] }
          ∧ document = ⟨w.documents.length, uri, w.languageOf p⟩
        ∨ ∃ n d, w.documents[n]? = some d ∧ d.uri = uri
          ∧ next = { w with documents := w.documents.modify n fun d => { d with text := text } }
          ∧ document = ⟨n, uri, d.language⟩) := by
  unfold Workspace.load at hload
  cases huri : Uri.ofPath p with
  | error e =>
    rw [huri] at hload
    cases hload
  | ok uri =>
    rw [huri] at hload
    cases hread : files.readText .root p with
    | error cause =>
      rw [hread] at hload
      cases hload
    | ok text =>
      rw [hread] at hload
      refine ⟨uri, text, rfl, ?_⟩
      cases hnumber : w.number? uri with
      | none =>
        simp only [hnumber] at hload
        cases hload
        exact .inl ⟨rfl, rfl⟩
      | some n =>
        simp only [hnumber] at hload
        cases hload
        obtain ⟨d, hd, hsame⟩ := number?_eq_some hnumber
        rw [hd]
        exact .inr ⟨n, d, hd, hsame, rfl, rfl⟩

theorem Faithful.append (hw : w.Faithful) {uri : Uri} (huri : Uri.ofPath p = .ok uri) (text : String) :
    { w with documents := w.documents ++ [Document.ofText uri (w.languageOf p) text] }.Faithful := by
  intro d hd
  rcases List.mem_append.mp hd with hd | hd
  · exact hw d hd
  · rw [List.mem_singleton.mp hd]
    exact ⟨p, huri, rfl⟩

theorem Faithful.modify (hw : w.Faithful) (n : Nat) (text : String) :
    { w with documents := w.documents.modify n fun d => { d with text := text } }.Faithful := by
  intro d hd
  obtain ⟨i, hi⟩ := List.mem_iff_getElem?.mp hd
  rw [List.getElem?_modify] at hi
  obtain ⟨d₀, hd₀, rfl⟩ := Option.map_eq_some_iff.mp hi
  obtain ⟨q, hq, hlanguage⟩ := hw d₀ (List.mem_of_getElem? hd₀)
  split <;> exact ⟨q, hq, hlanguage⟩

/-- **Loading keeps the languages right**, also for a document that was there before. -/
theorem Faithful.load (hw : w.Faithful) {next : Workspace} {document : DocumentRef}
    (hload : w.load files p = .ok (next, document)) : w.Loaded p next document := by
  obtain ⟨uri, text, huri, ⟨rfl, rfl⟩ | ⟨n, d, hd, hsame, rfl, rfl⟩⟩ := load_cases hload
  · exact ⟨rfl, rfl, hw.append huri text, huri, rfl⟩
  · -- it may have come under another spelling of its path
    obtain ⟨q, hq, hlanguage⟩ := hw d (List.mem_of_getElem? hd)
    refine ⟨rfl, rfl, hw.modify n text, huri, hlanguage.trans ?_⟩
    exact w.languageOf_congr (Uri.components_of_ofPath (hsame ▸ hq) huri)

end Workspace

end SyntaxWatch
