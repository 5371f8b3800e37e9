import ErCanvas.Proofs.Conversion
import ErCanvas.Proofs.Text.Spelling

/-! # Progress that cannot be written

A conversion reports every table by its name, and a name may hold half of a pair, which no encoded stream
takes. All other lines are made of fixed words, numbers and the names of formats and modes, and every
stream takes them. So a conversion whose progress is written ends as it would without it, unless the stream
is encoded and the name of a table holds half of a pair; then it ends with a fault.

* `allFit_convert`: when the lines of a conversion can be written.
* `result_convertTo`: what the stream does to the result.
* `convert_outcome`: how every conversion ends, whatever becomes of its progress. -/

namespace ErCanvas

namespace Text

theorem halfMark_notMem_toString (n : ℕ) : halfMark ∉ (toString n).toList := by
  rw [Nat.toString_eq_ofList_toDigits, String.toList_ofList]
  exact halfMark_notMem_toDigits (by decide) n

/-- A count between fixed words has no halves. -/
theorem hasHalf_count {pre post : String} (hpre : halfMark ∉ pre.toList) (hpost : halfMark ∉ post.toList)
    (n : ℕ) : hasHalf (pre ++ toString n ++ post) = false := by
  refine hasHalf_of_notMem ?_
  simp only [String.toList_append, List.mem_append, not_or]
  exact ⟨⟨hpre, halfMark_notMem_toString n⟩, hpost⟩

theorem Stream.takes_bytes (s : String) : Stream.bytes.takes s = !hasHalf s := rfl

end Text

namespace Conversion

open Diagram (blog blogScript)
open Text (Stream hasHalf hasHalf_count hasHalf_of_notMem halfMark)

variable {out : Stream} {s : Schema String} {r : Report} {events : List Event}

/-! ### Reports that can be written -/

/-- Every event can be written. -/
def AllFit (out : Stream) (events : List Event) : Prop := ∀ e ∈ events, e.fits out = true

/-- A stream that is not strictly encoded takes every text. -/
theorem allFit_of_ne (hout : out ≠ .bytes) (events : List Event) : AllFit out events := by
  rintro (line | n) -
  · simp [Event.fits, Stream.takes, hout]
  · rfl

theorem allFit_notes (notes : List Note) : AllFit out (notes.map Event.note) := by
  intro e he
  obtain ⟨n, -, rfl⟩ := List.mem_map.1 he
  rfl

theorem AllFit.append {more : List Event} (h : AllFit out events) (hmore : AllFit out more) :
    AllFit out (events ++ more) := List.forall_mem_append.2 ⟨h, hmore⟩

theorem result_writtenTo (h : AllFit out r.events) : (r.writtenTo out).result = r.result := by
  rw [Report.writtenTo, if_pos (List.all_eq_true.2 h)]

theorem result_writtenTo_of_not (h : ¬ AllFit out r.events) :
    (r.writtenTo out).result = .error .unencodable := by
  rw [Report.writtenTo, if_neg (mt List.all_eq_true.1 h)]

/-! ### The lines of a conversion -/

theorem fits_progress {line : String} : (Event.progress line).fits .bytes = true ↔ hasHalf line = false := by
  rw [Event.fits, Stream.takes_bytes, Bool.not_eq_true']

/-- The line of a table holds half of a pair if its name does. -/
theorem hasHalf_tableLine (t : Table String) :
    hasHalf ("   - " ++ t.name ++ " (" ++ toString t.columns.length ++ " columns)") = hasHalf t.name := by
  have hpost : (" (" ++ toString t.columns.length ++ " columns)").toList =
      ' ' :: '(' :: ((toString t.columns.length).toList ++ " columns)".toList) := by
    simp only [String.toList_append]
    rfl
  have hmark : halfMark ∉ (" (" ++ toString t.columns.length ++ " columns)").toList := by
    simp only [String.toList_append, List.mem_append, not_or]
    exact ⟨⟨by decide, Text.halfMark_notMem_toString _⟩, by decide⟩
  have hline : "   - " ++ t.name ++ " (" ++ toString t.columns.length ++ " columns)" =
      "   - " ++ t.name ++ (" (" ++ toString t.columns.length ++ " columns)") := by
    simp only [String.append_assoc]
  rw [hline, Text.hasHalf_append_cons (by decide) hpost (by decide) hmark]

/-- **What is reported of a schema** can be written if no name of a table holds half of a pair. -/
theorem allFit_foundLines :
    AllFit .bytes ((foundLines s).map Event.progress) ↔ ∀ t ∈ s.tables, hasHalf t.name = false := by
  have hhead : hasHalf ("✅ Found " ++ toString s.tables.length ++ " table(s):") = false :=
    hasHalf_count (by decide) (by decide) _
  have hlast : hasHalf ("   - " ++ toString s.relationships.length ++ " relationships") = false :=
    hasHalf_count (by decide) (by decide) _
  simp only [AllFit, List.forall_mem_map, fits_progress, foundLines, List.cons_append, List.forall_mem_cons,
    List.forall_mem_append, hasHalf_tableLine, hhead, hlast, List.not_mem_nil, false_imp_iff, implies_true,
    true_and, and_true]

/-- What is reported of routes can be written. -/
theorem allFit_finished (s : Schema String) (mode : Option RouteMode) :
    AllFit .bytes (finished s (modeGiven mode)).events := by
  have hmode : hasHalf ("\n🧭 Routing relationships (" ++ (modeGiven mode).text ++ ")...") = false := by
    rcases mode with - | - | -
    · decide +kernel
    · decide +kernel
    · decide +kernel
  have hhead :
      AllFit .bytes [.progress ("\n🧭 Routing relationships (" ++ (modeGiven mode).text ++ ")...")] :=
    List.forall_mem_singleton.2 (fits_progress.2 hmode)
  unfold finished
  split
  · exact nofun
  · split
    · exact nofun
    · unfold routed
      split
      · exact hhead
      · rename_i routes notes _
        have hlast : AllFit .bytes [.progress ("   - " ++ toString routes.length ++ " route(s)")] :=
          List.forall_mem_singleton.2 (fits_progress.2 (hasHalf_count (by decide) (by decide) _))
        exact (hhead.append (allFit_notes notes)).append hlast

/-- **What is reported of a conversion** can be written, but for the names of tables. -/
theorem allFit_convert (text : String) (format : Option SourceFormat) (mode : Option RouteMode)
    (depth : ℕ) :
    AllFit .bytes (convert (.str text) (formatGiven format) (modeGiven mode) depth).events ↔
      ∀ s, (extractAs (formatOf text format) (.str text) depth).1 = .ok s →
        ∀ t ∈ s.tables, hasHalf t.name = false := by
  have hname : hasHalf ("🔍 Parsing " ++ String.ofList (Text.upper (formatOf text format).name.toList) ++
      " schema...") = false := by
    cases formatOf text format with
    | script => decide +kernel
    | declaration => decide +kernel
  have hhead : AllFit .bytes [.progress ("🔍 Parsing " ++
      String.ofList (Text.upper (formatOf text format).name.toList) ++ " schema...")] :=
    List.forall_mem_singleton.2 (fits_progress.2 hname)
  simp only [convert, formatName_formatGiven, ofName_name]
  have hbefore := hhead.append (allFit_notes (extractAs (formatOf text format) (.str text) depth).2)
  cases (extractAs (formatOf text format) (.str text) depth).1 with
  | error d => exact iff_of_true hbefore fun _ hs => by cases hs
  | ok s =>
    have hafter := allFit_finished s mode
    constructor
    · rintro h _ ⟨⟩
      exact allFit_foundLines.1 fun e he => h e (List.mem_append_left _ (List.mem_append_right _ he))
    · exact fun h => (hbefore.append (allFit_foundLines.2 (h s rfl))).append hafter

/-- **The result of a conversion whose progress is written** is that of the conversion, unless the stream is
encoded and a name of a table holds half of a pair. -/
theorem result_convertTo (out : Stream) (text : String) (format : Option SourceFormat)
    (mode : Option RouteMode) (depth : ℕ) :
    let written := (convertTo out (.str text) (formatGiven format) (modeGiven mode) depth).result
    let extracted := (extractAs (formatOf text format) (.str text) depth).1
    ((out = .bytes → ∀ s, extracted = .ok s → ∀ t ∈ s.tables, hasHalf t.name = false) →
      written = (convert (.str text) (formatGiven format) (modeGiven mode) depth).result) ∧
    (out = .bytes → (∃ s, extracted = .ok s ∧ ∃ t ∈ s.tables, hasHalf t.name = true) →
      written = .error .unencodable) := by
  refine ⟨fun h => result_writtenTo ?_, ?_⟩
  · by_cases hout : out = .bytes
    · subst hout
      exact (allFit_convert text format mode depth).2 (h rfl)
    · exact allFit_of_ne hout _
  · rintro rfl ⟨s, hs, t, ht, hhalf⟩
    refine result_writtenTo_of_not fun hfit => ?_
    have hname := (allFit_convert text format mode depth).1 hfit s hs t ht
    rw [hhalf] at hname
    cases hname

/-! ### Conversions -/

/-- **How every conversion ends**, while its progress is written to a stream, however deep a document may
be. Where the reader of the format, given or detected, has an error, the conversion ends with it. Where
there is a schema, and the stream is encoded, and the name of a table holds half of a pair, the conversion
ends with a fault. Otherwise it ends with the document of the schema in the default layout, and if routes are
asked for, with one for each relationship whose names are found. With its routes and without them, the
document is imported again as that of the schema. No text is so long as the limit. -/
theorem convert_outcome (out : Stream) (text : String) (format : Option SourceFormat)
    (mode : Option RouteMode) (depth : ℕ) (hlength : text.length < 2 ^ 63) :
    let result := (convertTo out (.str text) (formatGiven format) (modeGiven mode) depth).result
    let extracted := (extractAs (formatOf text format) (.str text) depth).1
    (∀ d, extracted = .error d → d.message ≠ "" ∧ result = .ok (.error d)) ∧
      ∀ s, extracted = .ok s →
        (out = .bytes → (∃ t ∈ s.tables, hasHalf t.name = true) → result = .error .unencodable) ∧
        ((out = .bytes → ∀ t ∈ s.tables, hasHalf t.name = false) →
          ∃ document v, Conversion.document s = .ok document ∧ result = .ok (.ok v) ∧
            Restores s document ∧ Restores s v ∧ (mode = none → v = document) ∧
            ∀ m, mode = some m → ∃ routes, v = withRoutes routes document ∧ DrawsResolved s m routes) := by
  intro result extracted
  obtain ⟨hsame, hfault⟩ := result_convertTo out text format mode depth
  obtain ⟨herror, hok⟩ := convert_total text format mode depth hlength
  refine ⟨fun d hd => ?_, fun s hs => ⟨fun hout hhalf => hfault hout ⟨s, hs, hhalf⟩, fun hnames => ?_⟩⟩
  · obtain ⟨hmessage, hresult⟩ := herror d hd
    exact ⟨hmessage, (hsame fun _ s hs => nomatch hs.symm.trans hd).trans hresult⟩
  · have hwritten := hsame fun hout s' hs' => by
      cases hs.symm.trans hs'
      exact hnames hout
    obtain ⟨document, v, hdocument, hv, hrest⟩ := hok s hs
    exact ⟨document, v, hdocument, hwritten.trans hv, hrest⟩

/-- Posts with their authors, with the progress written to an encoded stream. -/
theorem convert_outcome_blog : ∃ document v routes, Conversion.document blog = .ok document ∧
    (convertTo .bytes (.str blogScript) (.str "auto") (.str "grid")).result = .ok (.ok v) ∧ Restores blog v ∧
    v = withRoutes routes document ∧ routes.length = 1 := by
  have hformat : formatOf blogScript none = .script := by decide +kernel
  have hextracted : (extractAs (formatOf blogScript none) (.str blogScript)).1 = .ok blog := by
    rw [hformat]
    exact Outcome.mapError_eq_ok.2 Diagram.extractFrom_blog
  have hnames : ∀ t ∈ blog.tables, hasHalf t.name = false := by decide +kernel
  obtain ⟨-, h⟩ := convert_outcome .bytes blogScript none (some .grid) Json.depthLimit (by decide +kernel)
  obtain ⟨document, v, hdocument, hv, -, hrestores, -, hroutes⟩ := (h blog hextracted).2 fun _ => hnames
  obtain ⟨routes, hwith, hdraws⟩ := hroutes .grid rfl
  have hone : (blog.relationships.filter blog.resolves).length = 1 := by decide +kernel
  exact ⟨document, v, routes, hdocument, hv, hrestores, hwith, hdraws.length_eq ▸ hone⟩

/-- A document of ASCII characters that declares a table by half of a pair. -/
def halfNamed : String := "\x7b\"tables\":[\x7b\"name\":\"\\ud800\"\x7d]\x7d"

/-- The conversion of a text that declares a schema ends with a fault. -/
theorem halfNamed_faults : (∃ s, (extractAs .declaration (.str halfNamed)).1 = .ok s) ∧
    (convertTo .bytes (.str halfNamed) (.str "json") (.str "none")).result = .error .unencodable := by
  have hextracted : (extractAs .declaration (.str halfNamed)).1 =
      .ok ⟨[⟨String.ofList (Text.spelling 0xD800), []⟩], []⟩ := by decide +kernel
  have hfault := (result_convertTo .bytes halfNamed (some .declaration) none Json.depthLimit).2
  exact ⟨⟨_, hextracted⟩, hfault rfl ⟨_, hextracted, _, List.mem_singleton_self _, by decide +kernel⟩⟩

end Conversion

end ErCanvas
