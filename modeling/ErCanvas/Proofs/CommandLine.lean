import ErCanvas.CommandLine.Run
import ErCanvas.Proofs.Conversion.Progress

/-! # What a run writes

A run comes to a file only with the document that its source has been converted to, and whatever happens to
a run before that leaves its surroundings as they were when the source had been read. In the file of a
document with half of a pair nothing is left, and the run ends with a fault. A run that ends with success
has saved the whole document or shown it, and the document is imported again as the schema of the source.

* `Options.Converts`, `Options.Converts.restores`: the document of a source under the options.
* `Options.perform_cases`: how a run fails, and how the document leaves it.
* `Options.run_writes`: what a run does to its surroundings.
* `Options.run_succeeds`: what a success stands for. -/

namespace ErCanvas

namespace Conversion

variable {out : Text.Stream} {r : Report}

/-- A report that is written has no result of its own but a fault. -/
theorem result_of_writtenTo {v : Except SourceDefect Json} (h : (r.writtenTo out).result = .ok v) :
    r.result = .ok v := by
  unfold Report.writtenTo at h
  split at h
  · exact h
  · cases h

end Conversion

namespace CommandLine

open Conversion (convertTo formatGiven modeGiven formatOf Restores)

/-! ### Parts of a run -/

section

variable {α β : Type} {x : Showing α} {f : α → Showing β} {t t₁ : Transcript}

/-- The part ends the run, and without success. -/
def Fails (x : Showing α) (t : Transcript) : Prop := ∃ e t₁, x t = .error e t₁ ∧ e ≠ .exit 0

/-- The part does not end the run with success, whatever has been shown before. -/
def Proceeds (x : Showing α) : Prop := ∀ t, Fails x t ∨ ∃ a t₁, x t = .ok a t₁

theorem proceeds_pure (a : α) : Proceeds (pure a) := fun t => .inr ⟨a, t, rfl⟩

theorem run_bind {a : α} (h : x t = .ok a t₁) (f : α → Showing β) : (x >>= f) t = f a t₁ := by
  have hbind : (x >>= f) t = EStateM.bind x f t := rfl
  rw [hbind, EStateM.bind, h]

theorem Fails.bind (h : Fails x t) (f : α → Showing β) : Fails (x >>= f) t := by
  obtain ⟨e, t₁, hx, he⟩ := h
  have hbind : (x >>= f) t = EStateM.bind x f t := rfl
  exact ⟨e, t₁, by rw [hbind, EStateM.bind, hx], he⟩

/-- Where a part proceeds, the run fails in it or goes on behind it. -/
theorem Proceeds.cases (hx : Proceeds x) (f : α → Showing β) (t : Transcript) :
    Fails (x >>= f) t ∨ ∃ a t₁, (x >>= f) t = f a t₁ := by
  rcases hx t with hfails | ⟨a, t₁, hrun⟩
  · exact .inl (hfails.bind f)
  · exact .inr ⟨a, t₁, run_bind hrun f⟩

theorem Proceeds.bind (hx : Proceeds x) (hf : ∀ a, Proceeds (f a)) : Proceeds (x >>= f) := by
  intro t
  rcases hx.cases f t with hfails | ⟨a, t₁, hrest⟩
  · exact .inl hfails
  · rw [Fails, hrest]
    exact hf a t₁

end

variable {k : Console} {o : Options} {source : Source}

/-- Nothing but its stream keeps a line from being shown. -/
theorem say_cases (k : Console) (c : Channel) (text : String) (t : Transcript) :
    Fails (k.say c text) t ∨ k.say c text t = .ok () (t.line c ((k.stream c).written text)) := by
  unfold Console.say
  split
  · exact .inr rfl
  · exact .inl ⟨_, t, rfl, nofun⟩

theorem proceeds_say (k : Console) (c : Channel) (text : String) : Proceeds (k.say c text) :=
  fun t => (say_cases k c text t).imp_right fun h => ⟨(), _, h⟩

namespace Options

theorem proceeds_announce (o : Options) (k : Console) : Proceeds (o.announce k) := by
  unfold announce
  split
  · exact proceeds_say _ _ _
  · exact proceeds_say _ _ _

theorem proceeds_report (o : Options) (k : Console) (event : Conversion.Event) :
    Proceeds (o.report k event) := by
  cases event with
  | progress line => exact proceeds_say _ _ _
  | note n =>
    simp only [report]
    split
    · exact proceeds_say _ _ _
    · exact proceeds_pure ()

theorem proceeds_reports (o : Options) (k : Console) (events : List Conversion.Event) :
    Proceeds (events.forM (o.report k)) := by
  induction events with
  | nil => exact proceeds_pure ()
  | cons event events ih => exact (o.proceeds_report k event).bind fun _ => ih

/-! ### The document of a run -/

/-- The options turn the text of a source into a document. -/
def Converts (o : Options) (k : Console) (text : String) (v : Json) : Prop :=
  (convertTo (k.stream o.channel) (.str text) o.formatName o.routesName).result = .ok (.ok v)

/-- The document leaves a part of a run: it has been shown, with success, or it is left to be written to the
file that is named. -/
def Leaves (o : Options) (k : Console) (document : String) (x : Showing Delivery)
    (t t₁ : Transcript) : Prop :=
  (o.output = .value "-" ∧ x t = .error (.exit 0) (t₁.line .output (k.output.written document))) ∨
    ∃ path, o.output = .value path ∧ path ≠ "-" ∧ x t = .ok ⟨path, document⟩ t₁

theorem deliver_cases (o : Options) (k : Console) (document : String) (t : Transcript) :
    Fails (o.deliver k document) t ∨ o.Leaves k document (o.deliver k document) t t := by
  rcases houtput : o.output with path | -
  · by_cases hdash : path = "-"
    · have hdeliver : o.deliver k document = (do k.say .output document; throw (.exit 0)) := by
        rw [deliver, houtput, hdash]
        rfl
      rw [hdeliver]
      rcases say_cases k .output document t with hfails | hsaid
      · exact .inl (hfails.bind _)
      · exact .inr (.inl ⟨congrArg Given.value hdash ▸ houtput, run_bind hsaid _⟩)
    · have hdeliver : o.deliver k document = pure ⟨path, document⟩ := by
        rw [deliver, houtput]
        split
        · rename_i heq
          exact absurd (Given.value.inj heq) hdash
        · rename_i heq
          cases heq
          rfl
        · rename_i heq
          cases heq
      exact .inr (.inr ⟨path, houtput, hdash, by rw [hdeliver]; rfl⟩)
  · have hdeliver : o.deliver k document = throw (.fault .wrongKind) := by rw [deliver, houtput]
    exact .inl ⟨.fault .wrongKind, t, by rw [hdeliver]; rfl, nofun⟩

theorem convert_cases (o : Options) (k : Console) (text : String) (t : Transcript) :
    Fails (o.convert k text) t ∨
      ∃ v t₁, o.Converts k text v ∧ o.Leaves k v.print (o.convert k text) t t₁ := by
  unfold convert Converts
  generalize convertTo (k.stream o.channel) (.str text) o.formatName o.routesName = converted
  rcases (o.proceeds_reports k converted.events).cases _ t with hfails | ⟨⟨⟩, t₁, hrest⟩
  · exact .inl hfails
  · simp only [Fails, Leaves, hrest]
    rcases converted.result with f | d | v
    · exact .inl ⟨.fault f, t₁, rfl, nofun⟩
    · rcases (proceeds_say k .output ("\n❌ Error: " ++ d.message)).cases (fun _ => throw (.exit 1)) t₁ with
        hfails | ⟨-, t₂, hsaid⟩
      · exact .inl hfails
      · exact .inl ⟨.exit 1, t₂, hsaid, by simp⟩
    · exact (o.deliver_cases k v.print t₁).imp_right fun h => ⟨v, t₁, rfl, h⟩

/-- **What a run comes to** between reading the source and writing the file: it fails, or the document of the
source leaves it. -/
theorem perform_cases (o : Options) (k : Console) (source : Source) (t : Transcript) :
    Fails (o.perform k source) t ∨ ∃ s v t₁, source = .text s ∧ o.Converts k (withLineFeeds s) v ∧
      o.Leaves k v.print (o.perform k source) t t₁ := by
  cases source with
  | folder =>
    rcases (o.proceeds_announce k).cases (fun _ => throw (.fileFault .isFolder)) t with
      hfails | ⟨-, t₁, hrest⟩
    · exact .inl hfails
    · exact .inl ⟨.fileFault .isFolder, t₁, hrest, nofun⟩
  | missing =>
    rcases (proceeds_say k .output _).cases (fun _ => throw (.exit 1)) t with hfails | ⟨-, t₁, hrest⟩
    · exact .inl hfails
    · exact .inl ⟨.exit 1, t₁, hrest, by simp⟩
  | tooLong => exact .inl ⟨.fileFault .tooLong, t, rfl, nofun⟩
  | text s =>
    rcases (o.proceeds_announce k).cases (fun _ => o.convert k (withLineFeeds s)) t with
      hfails | ⟨-, t₁, hrest⟩
    · exact .inl hfails
    · have hperform : o.perform k (.text s) t = o.convert k (withLineFeeds s) t₁ := hrest
      rw [Fails, hperform]
      refine (o.convert_cases k (withLineFeeds s) t₁).imp_right fun ⟨v, t₂, hv, hleaves⟩ => ?_
      exact ⟨s, v, t₂, rfl, hv, by rwa [Leaves, hperform]⟩

/-! ### The document and its source -/

theorem formatName_value {format : Option SourceFormat} (h : o.format = .value format) :
    o.formatName = formatGiven format := by
  rw [formatName, h]
  cases format with
  | none => rfl
  | some format => rfl

theorem routesName_value {mode : Option RouteMode} (h : o.routes = .value mode) :
    o.routesName = modeGiven mode := by
  rw [routesName, h]
  cases mode with
  | none => rfl
  | some mode => rfl

/-- There is no document if the format or the mode is given as nothing. -/
theorem Converts.exists_given {text : String} {v : Json} (h : o.Converts k text v) :
    ∃ format mode, o.format = .value format ∧ o.routes = .value mode := by
  have hresult := Conversion.result_of_writtenTo h
  rcases hformat : o.format with format | -
  · rcases hroutes : o.routes with mode | -
    · exact ⟨format, mode, rfl, rfl⟩
    · have hnames : o.routesName = .arr [] := by rw [routesName, hroutes]
      rw [formatName_value hformat, hnames, Conversion.result_convert] at hresult
      split at hresult
      · cases hresult
      · simp only [Conversion.finished, Conversion.document_eq] at hresult
        cases hresult
  · have hnames : o.formatName = .arr [] := by rw [formatName, hformat]
    rw [hnames] at hresult
    cases hresult

/-- **The document of a run is imported again** as the schema of its source in the default layout. -/
theorem Converts.restores {text : String} {v : Json} (h : o.Converts k text v)
    (hlength : text.length < 2 ^ 63) : ∃ format s, o.format = .value format ∧
      (extractAs (formatOf text format) (.str text)).1 = .ok s ∧ Restores s v := by
  obtain ⟨format, mode, hformat, hroutes⟩ := h.exists_given
  have hresult := Conversion.result_of_writtenTo h
  rw [formatName_value hformat, routesName_value hroutes] at hresult
  obtain ⟨herror, hok⟩ := Conversion.convert_total text format mode Json.depthLimit hlength
  cases hextracted : (extractAs (formatOf text format) (.str text)).1 with
  | error d => cases (herror d hextracted).2.symm.trans hresult
  | ok s =>
    obtain ⟨-, w, -, hw, -, hrestores, -⟩ := hok s hextracted
    cases hw.symm.trans hresult
    exact ⟨format, s, hformat, hextracted, hrestores⟩

end Options

/-! ### Whole runs -/

section

variable {World : Type} {around : Surroundings (StateM World)} {w w₁ : World}

/-- What is found as the source of a run. -/
def Options.found (o : Options) (around : Surroundings (StateM World)) : StateM World Source :=
  if o.input = "-" then .text <$> around.input else around.read o.input

/-- A run carries out its options on what is found as its source. -/
theorem Options.run_eq (hfound : o.found around w = (source, w₁)) : o.run around w =
    match o.perform around.console source .empty with
    | .error e t => (⟨t, e⟩, w₁)
    | .ok d t => d.write around t w₁ := by
  have hrest : o.run around w = (match o.perform around.console (o.found around w).1 .empty with
      | .error e t => pure ⟨t, e⟩
      | .ok d t => d.write around t : StateM World Result) (o.found around w).2 := by
    unfold run found
    split
    · rfl
    · rfl
  rw [hrest, hfound]
  cases o.perform around.console source .empty with
  | error e t => rfl
  | ok d t => rfl

/-- What is left in the file of a document. -/
def fileText (document : String) : String := if Text.hasHalf document then "" else document

/-- What is written for a delivery, and what a success says about it. -/
theorem Delivery.write_eq (d : Delivery) (around : Surroundings (StateM World)) (t : Transcript)
    (w : World) :
    (d.write around t w).2 = (around.write d.path (fileText d.document) w).2 ∧
      ((d.write around t w).1.ending = .exit 0 → Text.hasHalf d.document = false ∧
        (around.write d.path d.document w).1 = .ok ()) := by
  have htakes := Text.Stream.takes_bytes d.document
  unfold write fileText
  cases hhalf : Text.hasHalf d.document with
  | true =>
    rw [hhalf] at htakes
    simp only [htakes, Bool.not_true, Bool.false_eq_true, if_false, if_true]
    rcases hwrite : around.write d.path "" w with ⟨f | ⟨⟩, w₁⟩
    · simp only [bind, StateT.bind, hwrite]
      exact ⟨rfl, nofun⟩
    · simp only [bind, StateT.bind, hwrite]
      exact ⟨rfl, nofun⟩
  | false =>
    rw [hhalf] at htakes
    simp only [htakes, Bool.not_false, Bool.false_eq_true, if_false, if_true]
    rcases hwrite : around.write d.path d.document w with ⟨f | ⟨⟩, w₁⟩
    · simp only [bind, StateT.bind, hwrite]
      exact ⟨rfl, nofun⟩
    · simp only [bind, StateT.bind, hwrite]
      exact ⟨rfl, fun _ => ⟨trivial, trivial⟩⟩

/-- **What a run does to its surroundings** when it has read its source: nothing, or it writes one file, the
one that is named, with nothing but the document of the source. -/
theorem Options.run_writes (hfound : o.found around w = (source, w₁)) :
    (o.run around w).2 = w₁ ∨ ∃ s v path, source = .text s ∧
      o.Converts around.console (withLineFeeds s) v ∧ o.output = .value path ∧ path ≠ "-" ∧
      (o.run around w).2 = (around.write path (fileText v.print) w₁).2 := by
  rw [run_eq hfound]
  rcases o.perform_cases around.console source .empty with
    ⟨e, t, hrun, -⟩ | ⟨s, v, t, hs, hv, ⟨-, hrun⟩ | ⟨path, hpath, hdash, hrun⟩⟩
  · rw [hrun]
    exact .inl rfl
  · rw [hrun]
    exact .inl rfl
  · rw [hrun]
    exact .inr ⟨s, v, path, hs, hv, hpath, hdash, (Delivery.write_eq ⟨path, v.print⟩ around t w₁).1⟩

/-- **What a success stands for**: the document of the source has been shown, or the file that is named has
been written with the whole document. -/
theorem Options.run_succeeds (hfound : o.found around w = (source, w₁))
    (h : (o.run around w).1.ending = .exit 0) : ∃ s v, source = .text s ∧
      o.Converts around.console (withLineFeeds s) v ∧
      ((o.output = .value "-" ∧ (o.run around w).2 = w₁ ∧ ∃ t : Transcript,
          (o.run around w).1.transcript = t.line .output (around.console.output.written v.print)) ∨
        ∃ path, o.output = .value path ∧ path ≠ "-" ∧ Text.hasHalf v.print = false ∧
          around.write path v.print w₁ = (.ok (), (o.run around w).2)) := by
  rw [run_eq hfound] at h ⊢
  rcases o.perform_cases around.console source .empty with
    ⟨e, t, hrun, he⟩ | ⟨s, v, t, hs, hv, ⟨hdash, hrun⟩ | ⟨path, hpath, hdash, hrun⟩⟩
  · rw [hrun] at h
    exact absurd h he
  · rw [hrun]
    exact ⟨s, v, hs, hv, .inl ⟨hdash, rfl, t, rfl⟩⟩
  · rw [hrun] at h ⊢
    obtain ⟨hworld, hsaved⟩ := Delivery.write_eq ⟨path, v.print⟩ around t w₁
    obtain ⟨hhalf, hok⟩ := hsaved h
    have hfile : fileText v.print = v.print := by rw [fileText, hhalf]; rfl
    refine ⟨s, v, hs, hv, .inr ⟨path, hpath, hdash, hhalf, Prod.ext hok ?_⟩⟩
    rw [hworld, hfile]

end

end CommandLine

end ErCanvas
