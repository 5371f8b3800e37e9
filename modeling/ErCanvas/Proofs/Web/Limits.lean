import ErCanvas.Proofs.Web.Agreement

/-! # Sources at the limits

Two limits stand between the web interface and the conversion. The server stands deeper on the stack than
the command line does, so that fewer lists and objects may be open in a source that is sent to it: of lists
inside one another, those between the two depths are refused there and converted here. And a schema names
its tables more often than its source does: a long name goes into the body of one request with the source,
and not into that of the next one with the schema.

* `deepText`, `read_deepText`, `read_deepText_of_le`: lists inside one another.
* `longName`, `write_sending`, `write_wideReturn`: a long name in the bodies of both requests.
* `deep_parts`, `wide_parts`: where the web interface and the conversion part. -/

namespace ErCanvas.Web

open Json (Readable)
open Text (halfMark)

variable {n d depth : ℕ} {stack : Stack}

/-! ### Many times the same character -/

section

variable {c : Char}

theorem escaped_replicate (h : Json.escapeChar c = [c]) (n : ℕ) :
    (List.replicate n c).flatMap Json.escapeChar = List.replicate n c := by
  induction n with
  | zero => rfl
  | succ n ih => rw [List.replicate_succ, List.flatMap_cons, ih, h, List.singleton_append]

theorem utf8Len_replicate (h : c.utf8Size = 1) (n : ℕ) : String.utf8Len (List.replicate n c) = n := by
  induction n with
  | zero => rfl
  | succ n ih => rw [List.replicate_succ, String.utf8Len_cons, ih, h]

theorem halfMark_notMem_replicate (h : halfMark ≠ c) (n : ℕ) : halfMark ∉ List.replicate n c :=
  fun hmem => h (List.eq_of_mem_replicate hmem)

end

/-! ### Deep sources -/

/-- The text of a document without tables, and beside them that many lists inside one another. -/
def deepText (n : ℕ) : String :=
  String.ofList ('\x7b' :: (Json.writeText "tables" ++ ':' :: '[' :: ']' :: ',' ::
    (Json.writeText "x" ++ ':' :: (List.replicate n '[' ++ (List.replicate n ']' ++ ['\x7d'])))))

theorem length_deepText (n : ℕ) : (deepText n).length = 2 * n + 18 := by
  have htables : (Json.writeText "tables").length = 8 := by decide
  have hx : (Json.writeText "x").length = 3 := by decide
  simp only [deepText, String.length_ofList, List.length_cons, List.length_append, List.length_replicate,
    List.length_nil, htables, hx]
  omega

theorem head?_deepText (n : ℕ) : (deepText n).toList.head? ≠ some '\uFEFF' := by
  rw [deepText, String.toList_ofList]
  exact fun h => nomatch h

/-- The lists are what is left when the tables have been read. -/
theorem value_deepText (n d : ℕ) : ∃ fuel, Json.value (d + 2) (Json.skipSpace (deepText n).toList) =
    Json.fields (Json.value (d + 1)) (fuel + 1) [("tables", .arr [])]
      (Json.writeText "x" ++ ':' :: (List.replicate n '[' ++ (List.replicate n ']' ++ ['\x7d']))) := by
  rw [deepText, String.toList_ofList]
  generalize List.replicate n '[' ++ (List.replicate n ']' ++ ['\x7d']) = lists
  have hobject : ∀ cs, Json.value (d + 2) (Json.skipSpace ('\x7b' :: cs)) =
      Json.objectRest (Json.value (d + 1)) cs := fun _ => rfl
  have htables : ∀ cs, Json.value (d + 1) (Json.skipSpace ('[' :: ']' :: ',' :: cs)) =
      .ok (.arr [], ',' :: cs) := fun _ => rfl
  rw [hobject, Json.objectRest_key, Json.fields_comma (htables _), Json.skipSpace_writeText]
  exact ⟨_, rfl⟩

theorem read_deepText (h : n < d) : Json.read (deepText (n + 1)) (d + 1) =
    .ok (.obj [("tables", .arr []), ("x", Json.nested n)]) := by
  obtain ⟨d, rfl⟩ := Nat.exists_eq_add_one.2 (Nat.zero_lt_of_lt h)
  obtain ⟨fuel, hvalue⟩ := value_deepText (n + 1) d
  have hlists : Json.value (d + 1) (Json.skipSpace (List.replicate (n + 1) '[' ++
      (List.replicate (n + 1) ']' ++ ['\x7d']))) = .ok (Json.nested n, ['\x7d']) :=
    Json.value_brackets h ['\x7d']
  rw [Json.fields_last hlists] at hvalue
  simp only [Json.read, if_neg (head?_deepText (n + 1)), hvalue]
  rfl

theorem read_deepText_of_le (hd : 2 ≤ d) (h : d ≤ n) :
    Json.read (deepText n) d = .error (.tooDeep .list) := by
  obtain ⟨d, rfl⟩ := Nat.exists_eq_add_of_le' hd
  obtain ⟨n, rfl⟩ := Nat.exists_eq_add_one.2 (Nat.zero_lt_of_lt h)
  obtain ⟨fuel, hvalue⟩ := value_deepText (n + 1) d
  have hlists : Json.value (d + 1) (Json.skipSpace (List.replicate (n + 1) '[' ++
      (List.replicate (n + 1) ']' ++ ['\x7d']))) = .error (.tooDeep .list) :=
    Json.value_brackets_of_lt h _
  rw [Json.fields_error hlists] at hvalue
  simp only [Json.read, if_neg (head?_deepText (n + 1)), hvalue]

/-- The lists are in the body as they are in the source. -/
theorem write_sending_deep (n : ℕ) : (sending .declaration (deepText n)).write 0 =
    "\x7b\n  \"json\": \"\x7b\\\"tables\\\":[],\\\"x\\\":".toList ++
      (List.replicate n '[' ++ (List.replicate n ']' ++ "\x7d\"\n\x7d".toList)) := by
  simp only [sending, keyOf, deepText, Json.write, Json.writeEntries, Json.writeText, String.toList_ofList,
    List.flatMap_append, List.flatMap_cons, escaped_replicate (c := '[') rfl, escaped_replicate (c := ']') rfl,
    List.append_assoc, List.cons_append, List.nil_append]
  rfl

theorem posts_deepText (hbody : 1 ≤ stack.body) (n : ℕ) : Posts stack (endpointOf .declaration)
    (sending .declaration (deepText n)) (posting .declaration (sending .declaration (deepText n))) := by
  refine posts_sending hbody ?_
  rw [write_sending_deep]
  simp only [List.mem_append, not_or]
  exact ⟨by decide, halfMark_notMem_replicate (by decide) _, halfMark_notMem_replicate (by decide) _,
    by decide⟩

theorem fits_deepText (h : n ≤ 8000000) :
    (posting .declaration (sending .declaration (deepText n))).Fits := by
  refine fits_posting_iff.2 (size_print_le ?_)
  have hframe :
      String.utf8Len "\x7b\n  \"json\": \"\x7b\\\"tables\\\":[],\\\"x\\\":".toList = 34 := by decide
  have hend : String.utf8Len "\x7d\"\n\x7d".toList = 4 := by decide
  simp only [write_sending_deep, String.utf8Len_append, utf8Len_replicate (c := '[') rfl,
    utf8Len_replicate (c := ']') rfl, hframe, hend]
  omega

/-- The defect of a source in which too many lists are open. -/
def tooDeep : SourceDefect := .declaration (.unreadable
  "maximum recursion depth exceeded while decoding a JSON array from a unicode string")

/-- **A source between the depths of the readers** is refused by the server and converted by the command
line. -/
theorem deep_parts (hbody : 1 ≤ stack.body) (hd : 2 ≤ stack.source) (h : stack.source ≤ n)
    (hn : n < depth) (hsize : n ≤ 8000000) (out : Text.Stream) (mode : RouteMode) :
    (∃ v, (Conversion.convertTo out (.str (deepText n)) (.str "json") (.str mode.name) depth).result =
        .ok (.ok v)) ∧
      reply .standard stack (posting .declaration (sending .declaration (deepText n))) =
        ⟨400, .document (.obj [("error", .str (advice tooDeep)), ("details", .str tooDeep.message)])⟩ := by
  obtain ⟨n, rfl⟩ := Nat.exists_eq_add_one.2 (Nat.zero_lt_of_lt (hd.trans h))
  obtain ⟨depth, rfl⟩ := Nat.exists_eq_add_one.2 (Nat.zero_lt_of_lt hn)
  have hextracted : (extractAs .declaration (.str (deepText (n + 1))) (depth + 1)).1 = .ok ⟨[], []⟩ := by
    simp only [extractAs, Declaration.extractFrom, Json.readValue, read_deepText (Nat.lt_of_succ_lt_succ hn)]
    rfl
  have hsource : (extractAs .declaration (.str (deepText (n + 1))) stack.source).1 = .error tooDeep := by
    simp only [extractAs, Declaration.extractFrom, Json.readValue, read_deepText_of_le hd h]
    rfl
  have hlength : (deepText (n + 1)).length < 2 ^ 63 := by
    rw [length_deepText]
    omega
  have hsame := (Conversion.result_convertTo out (deepText (n + 1)) (some .declaration) (some mode)
    (depth + 1)).1 fun _ s hs t ht => by
      cases hs.symm.trans hextracted
      exact absurd ht List.not_mem_nil
  obtain ⟨-, hok⟩ := Conversion.convert_total (deepText (n + 1)) (some .declaration) (some mode)
    (depth + 1) hlength
  obtain ⟨-, v, -, hv, -⟩ := hok _ hextracted
  have hreply := reply_extraction (posts_deepText hbody (n + 1)) (fits_deepText hsize)
  rw [hsource] at hreply
  exact ⟨⟨v, hsame.trans hv⟩, hreply⟩

/-! ### Wide sources -/

/-- The document of one table without columns. -/
def wideDocument (name : String) : Json := .obj [("tables", .arr [.obj [("name", .str name)]])]

/-- What it declares. -/
def wideSchema (name : String) : Schema String := ⟨[⟨name, []⟩], []⟩

/-- A name of that many letters. -/
def longName (n : ℕ) : String := String.ofList (List.replicate n 'a')

theorem lower_longName (n : ℕ) : Text.lower (longName n) = longName n := by
  have hascii : ∀ c ∈ List.replicate n 'a', c.toNat < 128 := fun c hc => by
    rw [List.eq_of_mem_replicate hc]
    decide
  rw [longName, Text.lower_of_ascii hascii, List.map_replicate]
  rfl

theorem escaped_longName (n : ℕ) : (longName n).toList.flatMap Json.escapeChar = List.replicate n 'a' := by
  rw [longName, String.toList_ofList, escaped_replicate rfl]

theorem write_wideDocument (n : ℕ) : (wideDocument (longName n)).write 0 =
    "\x7b\n  \"tables\": [\n    \x7b\n      \"name\": \"".toList ++
      (List.replicate n 'a' ++ "\"\n    \x7d\n  ]\n\x7d".toList) := by
  simp only [wideDocument, Json.write, Json.writeItems, Json.writeEntries, Json.writeText, escaped_longName,
    List.append_assoc, List.cons_append, List.nil_append]
  rfl

/-- The name is once in the body with the source. -/
theorem write_sending (n : ℕ) : (sending .declaration (wideDocument (longName n)).print).write 0 =
    "\x7b\n  \"json\": \"\x7b\\n  \\\"tables\\\": [\\n    \x7b\\n      \\\"name\\\": \\\"".toList ++
      (List.replicate n 'a' ++ "\\\"\\n    \x7d\\n  ]\\n\x7d\"\n\x7d".toList) := by
  simp only [sending, keyOf, Json.write, Json.writeEntries, Json.writeText, Json.print, String.toList_ofList,
    write_wideDocument, List.flatMap_append, escaped_replicate (c := 'a') rfl, List.append_assoc,
    List.cons_append, List.nil_append]
  rfl

theorem posts_wideDocument (hbody : 1 ≤ stack.body) (n : ℕ) : Posts stack (endpointOf .declaration)
    (sending .declaration (wideDocument (longName n)).print)
    (posting .declaration (sending .declaration (wideDocument (longName n)).print)) := by
  refine posts_sending hbody ?_
  rw [write_sending]
  simp only [List.mem_append, not_or]
  exact ⟨by decide, halfMark_notMem_replicate (by decide) n, by decide⟩

theorem fits_wideDocument (h : n ≤ 16777000) :
    (posting .declaration (sending .declaration (wideDocument (longName n)).print)).Fits := by
  refine fits_posting_iff.2 (size_print_le ?_)
  have hframe : String.utf8Len
      "\x7b\n  \"json\": \"\x7b\\n  \\\"tables\\\": [\\n    \x7b\\n      \\\"name\\\": \\\"".toList = 58 := by
    decide
  have hend : String.utf8Len "\\\"\\n    \x7d\\n  ]\\n\x7d\"\n\x7d".toList = 20 := by decide
  simp only [write_sending, String.utf8Len_append, utf8Len_replicate (c := 'a') rfl, hframe, hend]
  omega

/-- The document that the schema of a long name is sent back in. -/
def wideReturn (n : ℕ) : Json :=
  sendingBack (wideSchema (longName n)).stored.toJson (Layout.ofSchema (wideSchema (longName n))) .grid

/-- The schema and its positions, written out. -/
theorem wideReturn_eq (n : ℕ) : wideReturn n =
    .obj [("schema", .obj [("tables", .arr [.obj [("id", .str (longName n)), ("name", .str (longName n)),
        ("columns", .arr [])]]), ("relationships", .arr [])]),
      ("positions", .obj [(longName n, .obj [("x", .int 100), ("y", .int 100)])]),
      ("mode", .str "grid")] := by
  have hschema : (wideSchema (longName n)).stored.toJson =
      .obj [("tables", .arr [.obj [("id", .str (Text.lower (longName n))), ("name", .str (longName n)),
        ("columns", .arr [])]]), ("relationships", .arr [])] := rfl
  have hplace : Layout.place (Layout.side 1) 0 = (100, 100) := by decide
  have hpositions : Layout.ofSchema (wideSchema (longName n)) =
      .obj [(Text.lower (longName n), .obj [("x", .int 100), ("y", .int 100)])] :=
    congrArg (fun p : Place => Json.obj [(Text.lower (longName n), .obj [("x", .int p.1), ("y", .int p.2)])])
      hplace
  rw [wideReturn, hschema, hpositions, lower_longName]
  rfl

set_option maxRecDepth 2000 in
/-- The name is three times in the body with the schema. -/
theorem write_wideReturn (n : ℕ) : (wideReturn n).write 0 =
    "\x7b\n  \"schema\": \x7b\n    \"tables\": [\n      \x7b\n        \"id\": \"".toList ++
      (List.replicate n 'a' ++ ("\",\n        \"name\": \"".toList ++
      (List.replicate n 'a' ++ ("\",\n        \"columns\": []\n      \x7d\n    ],".toList ++
      ("\n    \"relationships\": []\n  \x7d,\n  \"positions\": \x7b\n    \"".toList ++
      (List.replicate n 'a' ++ ("\": \x7b\n      \"x\": 100,\n      \"y\": 100\n    \x7d\n  \x7d,".toList ++
      "\n  \"mode\": \"grid\"\n\x7d".toList))))))) := by
  rw [wideReturn_eq]
  simp only [Json.write, Json.writeItems, Json.writeEntries, Json.writeText, escaped_longName,
    List.append_assoc, List.cons_append, List.nil_append]
  rfl

theorem posts_wideReturn (hbody : 7 ≤ stack.body) (n : ℕ) :
    Posts stack .routes (wideReturn n) (posting .routes (wideReturn n)) := by
  have hlimit : 10 ^ 3 ≤ 10 ^ Fault.digitLimit := Nat.pow_le_pow_right (by decide) (by decide)
  have hplace : (Number.int 100).ReadsBack := Number.readsBack_int (lt_of_lt_of_le (by decide) hlimit)
  have hreadable : Readable 7 (wideReturn n) := by
    rw [wideReturn_eq]
    simp [hplace]
  have hname := @halfMark_notMem_replicate 'a' (by decide) n
  have hmark : halfMark ∉ (wideReturn n).write 0 := by
    simp only [write_wideReturn, List.mem_append, not_or]
    exact ⟨by decide, hname, by decide, hname, by decide, by decide, hname, by decide, by decide⟩
  exact posts_posting (hreadable.mono hbody) (by simp) hmark

theorem not_fits_wideReturn (h : 5592406 ≤ n) : ¬ (posting .routes (wideReturn n)).Fits := by
  have hlimit : Settings.standard.maxContentLength = 16777216 := rfl
  rw [fits_posting_iff, Json.print, String.utf8ByteSize_ofList, write_wideReturn]
  simp only [String.utf8Len_append, utf8Len_replicate (c := 'a') rfl, hlimit]
  omega

/-- **A schema that cannot be sent back**: its source is within the limit on the size of a body, but the
schema is not. -/
theorem wide_parts (hbody : 7 ≤ stack.body) (hsource : 3 ≤ stack.source) (hn : n ≤ 16777000)
    (h : 5592406 ≤ n) :
    let s := wideSchema (longName n)
    let back := sendingBack s.stored.toJson (Layout.ofSchema s) .grid
    reply .standard stack (posting .declaration (sending .declaration (wideDocument (longName n)).print)) =
        ⟨200, .document (.obj [("schema", s.stored.toJson), ("positions", Layout.ofSchema s)])⟩ ∧
      Posts stack .routes back (posting .routes back) ∧
      reply .standard stack (posting .routes back) = .bare 500 := by
  intro s back
  have hextracted :
      (extractAs .declaration (.str (wideDocument (longName n)).print) stack.source).1 = .ok s := by
    have hreadable : Readable 3 (wideDocument (longName n)) := by simp [wideDocument]
    simp only [extractAs, Declaration.extractFrom, Json.readValue_print (hreadable.mono hsource)]
    rfl
  have hsent := posts_wideDocument (Nat.one_le_of_lt hbody) n
  have hreply := reply_extraction hsent (fits_wideDocument hn)
  rw [hextracted] at hreply
  have hback := posts_wideReturn hbody n
  exact ⟨hreply, hback, hback.reply_of_not_fits (not_fits_wideReturn h) (by simp)⟩

/-! Nine hundred and eighty lists inside one another, and a name of more than five million letters. -/

theorem web_limits : (∃ v,
    (Conversion.convertTo .bytes (.str (deepText 980)) (.str "json") (.str "grid")).result = .ok (.ok v)) ∧
    reply .standard ⟨975, 975⟩ (posting .declaration (sending .declaration (deepText 980))) =
      ⟨400, .document (.obj [("error", .str (advice tooDeep)), ("details", .str tooDeep.message)])⟩ ∧
    let s := wideSchema (longName 5600000)
    let back := sendingBack s.stored.toJson (Layout.ofSchema s) .grid
    reply .standard ⟨975, 975⟩
        (posting .declaration (sending .declaration (wideDocument (longName 5600000)).print)) =
      ⟨200, .document (.obj [("schema", s.stored.toJson), ("positions", Layout.ofSchema s)])⟩ ∧
    Posts ⟨975, 975⟩ .routes back (posting .routes back) ∧
    reply .standard ⟨975, 975⟩ (posting .routes back) = .bare 500 := by
  obtain ⟨hv, hdeep⟩ := @deep_parts 980 Json.depthLimit ⟨975, 975⟩ (by decide) (by decide) (by decide)
    (by decide) (by decide) .bytes .grid
  exact ⟨hv, hdeep, @wide_parts 5600000 ⟨975, 975⟩ (by decide) (by decide) (by decide) (by decide)⟩

end ErCanvas.Web
