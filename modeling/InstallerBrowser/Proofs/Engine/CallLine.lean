import InstallerBrowser.Engine.Call
import InstallerBrowser.Proofs.Json.RoundTrip

/-!
# InstallerBrowser.Proofs.Engine.CallLine

The line of a call, and what an engine reads from it.

Whatever stands in the texts of a call, its line holds no line break, and reading it gives the
`value` of the call: an object that names the kind of the call and holds its data, a language only
if one is chosen.  So the call can be told from its line, which is not the line of an abort either
(`parse_render_call`).
-/

namespace InstallerBrowser

open Json (Fits)

/-! ## Options -/

namespace Options

/-- The options as they are read, the members in the order of their keys. -/
def value (o : Options) : Json :=
  .object
    [ ("collisionResolutionOptions", .string o.collision.name)
    , ("enableDebug", .bool o.enableDebug)
    , ("excludeTemps", .bool o.excludeTemps)
    , ("extractionLanguageFilterOptions", .string o.languageFilter.name)
    , ("logsToFile", .bool o.logsToFile) ]

theorem sorted_members (o : Options) : (Json.object o.members).sorted = o.value := by
  simp only [members, value, OptionField.name, Json.sorted_object, Json.sorted_bool,
    Json.sorted_string, List.map_cons, List.map_nil, Json.ofMembers, List.foldl_cons,
    List.foldl_nil, Json.insertMember, String.reduceLT, String.reduceEq, reduceIte]

theorem fits_members (o : Options) (depth : Nat) : Fits (depth + 1) (.object o.members) := by
  refine .object fun member hmem => ?_
  simp only [members, List.mem_cons, List.not_mem_nil, or_false] at hmem
  rcases hmem with rfl | rfl | rfl | rfl | rfl
  · exact .bool _
  · exact .bool _
  · exact .string _
  · exact .string _
  · exact .bool _

/-- The options are read from their value. -/
theorem ofJson_value (o : Options) : ofJson o.value = .ok o := by
  obtain ⟨debug, temps, filter, collision, logs⟩ := o
  cases filter <;> cases collision <;> rfl

end Options

/-! ## Requests -/

namespace ExtractionRequest

/-- The members of a request as they are read, in the order of their keys. -/
def value (r : ExtractionRequest) : Json :=
  .object
    ([ ("dirs", .array (r.dirs.map .string))
     , ("files", .array (r.files.map Json.ofNat)) ] ++
     (match r.language with
      | some code => [("lang", .string code)]
      | none => []) ++
     [("output", .string r.output)])

theorem sorted_members (r : ExtractionRequest) : (Json.object r.members).sorted = r.value := by
  have hfiles : (r.files.map Json.ofNat).map Json.sorted = r.files.map Json.ofNat := by
    simp [Json.ofNat]
  have hdirs : (r.dirs.map Json.string).map Json.sorted = r.dirs.map Json.string := by simp
  rw [Json.sorted_object, members, value]
  cases r.language with
  | none =>
      simp only [List.cons_append, List.nil_append, List.append_nil, List.map_cons, List.map_nil,
        Json.sorted_array, Json.sorted_string, hfiles, hdirs, Json.ofMembers, List.foldl_cons,
        List.foldl_nil, Json.insertMember, String.reduceLT, String.reduceEq, reduceIte]
  | some code =>
      simp only [List.cons_append, List.nil_append, List.map_cons, List.map_nil,
        Json.sorted_array, Json.sorted_string, hfiles, hdirs, Json.ofMembers, List.foldl_cons,
        List.foldl_nil, Json.insertMember, String.reduceLT, String.reduceEq, reduceIte]

theorem fits_members {r : ExtractionRequest} (h : ∀ id ∈ r.files, id < Nat.pow 2 32) (depth : Nat) :
    Fits (depth + 2) (.object r.members) := by
  refine .object fun member hmem => ?_
  simp only [members, List.mem_append, List.mem_cons, List.not_mem_nil, or_false] at hmem
  rcases hmem with ((rfl | rfl) | hlang) | rfl
  · refine .array fun item hitem => ?_
    obtain ⟨id, hid, rfl⟩ := List.mem_map.mp hitem
    exact .number (Nat.lt_trans (h id hid) (by decide))
  · refine .array fun item hitem => ?_
    obtain ⟨dir, _, rfl⟩ := List.mem_map.mp hitem
    exact .string dir
  · cases hcode : r.language with
    | none => simp [hcode] at hlang
    | some code =>
        simp only [hcode, List.mem_singleton] at hlang
        subst hlang
        exact .string code
  · exact .string _

theorem value_injective {r r' : ExtractionRequest} (h : r.value = r'.value) : r = r' := by
  obtain ⟨files, dirs, language, output⟩ := r
  obtain ⟨files', dirs', language', output'⟩ := r'
  have hfiles := @List.map_inj_right _ _ files files' Json.ofNat (by simp [Json.ofNat])
  have hdirs := @List.map_inj_right _ _ dirs dirs' Json.string (by simp)
  cases language <;> cases language' <;> simp_all [value]

end ExtractionRequest

/-! ## Calls -/

namespace EngineCall

/-- A call the caller's types let through: the number of each file it names fits into 32 bits. -/
def InRange : EngineCall → Prop
  | .extract request => ∀ id ∈ request.files, id < Nat.pow 2 32
  | _ => True

/-- A call as it is read, the members in the order of their keys. -/
def value : EngineCall → Json
  | .load file options =>
    .object [("call", .string "load"), ("file", .string file), ("options", options.value)]
  | .list => .object [("call", .string "list")]
  | .extract request => .object [("call", .string "extract"), ("request", request.value)]
  | .optionsDiffer options =>
    .object [("call", .string "optionsDiffer"), ("options", options.value)]

theorem sorted_toJson (c : EngineCall) : c.toJson.sorted = c.value := by
  cases c with
  | load file options =>
      simp only [toJson, arguments, kind, CallKind.name, value, ← Options.sorted_members,
        Json.sorted_object, Json.sorted_string, List.map_cons, List.map_nil, Json.ofMembers,
        List.foldl_cons, List.foldl_nil, Json.insertMember, String.reduceLT, String.reduceEq,
        reduceIte]
  | list => rfl
  | extract request =>
      simp only [toJson, arguments, kind, CallKind.name, value, ← ExtractionRequest.sorted_members,
        Json.sorted_object, Json.sorted_string, List.map_cons, List.map_nil, Json.ofMembers,
        List.foldl_cons, List.foldl_nil, Json.insertMember, String.reduceLT, String.reduceEq,
        reduceIte]
  | optionsDiffer options =>
      simp only [toJson, arguments, kind, CallKind.name, value, ← Options.sorted_members,
        Json.sorted_object, Json.sorted_string, List.map_cons, List.map_nil, Json.ofMembers,
        List.foldl_cons, List.foldl_nil, Json.insertMember, String.reduceLT, String.reduceEq,
        reduceIte]

theorem fits_toJson {c : EngineCall} (h : c.InRange) : Fits Json.maxDepth c.toJson := by
  refine .object fun member hmem => ?_
  rcases List.mem_cons.mp hmem with rfl | hmem
  · exact .string _
  · cases c with
    | load file options =>
        simp only [arguments, List.mem_cons, List.not_mem_nil, or_false] at hmem
        rcases hmem with rfl | rfl
        · exact .string file
        · exact options.fits_members 125
    | list => cases hmem
    | extract request =>
        simp only [arguments, List.mem_singleton] at hmem
        subst hmem
        exact ExtractionRequest.fits_members h 124
    | optionsDiffer options =>
        simp only [arguments, List.mem_singleton] at hmem
        subst hmem
        exact options.fits_members 125

theorem value_injective {c c' : EngineCall} (h : c.value = c'.value) : c = c' := by
  have hoptions : ∀ o o' : Options, o.value = o'.value → o = o' := fun o o' ho =>
    Except.ok.inj ((Options.ofJson_value o).symm.trans (ho ▸ Options.ofJson_value o'))
  have hrequests := @ExtractionRequest.value_injective
  cases c <;> cases c' <;> simp_all [value]
  · exact hoptions _ _ h.2
  · exact hrequests h
  · exact hoptions _ _ h

/-- **The line of a call**: it holds no line break, and is read as an object that names the kind of
the call and holds its data; so two calls have two lines, and none is that of an abort. -/
theorem parse_render_call (c : EngineCall) (h : c.InRange) :
    '\n' ∉ c.render.toList ∧
      Json.parse c.render = .ok c.value ∧ c.value.member? "call" = some (.string c.kind.name) ∧
      (∀ c' : EngineCall, c'.InRange → c'.render = c.render → c' = c) ∧
      c.render ≠ abortLine := by
  have hparse : ∀ c : EngineCall, c.InRange → Json.parse c.render = .ok c.value := by
    intro c hc
    rw [render, Json.parse_render (fits_toJson hc), sorted_toJson]
  have habort : Json.parse abortLine = .ok (.object [("call", .string "abort")]) :=
    Json.parse_render (.object fun member hmem => by
      rw [List.mem_singleton] at hmem
      subst hmem
      exact .string _)
  refine ⟨fun hmem => ?_, hparse c h, ?_, fun c' h' heq => ?_, fun heq => ?_⟩
  · have hprintable := Json.printable_write (fits_toJson h)
    rw [render, Json.render, String.toList_ofList] at hmem
    exact absurd (hprintable _ hmem) (by decide)
  · cases c <;> rfl
  · have hvalues := (hparse c' h').symm.trans (heq ▸ hparse c h)
    exact value_injective (Except.ok.inj hvalues)
  · rw [← heq, hparse c h] at habort
    cases c <;> simp [value] at habort

/-- A call in whose texts there are quotes, backslashes, line breaks, a control character and
characters beyond ASCII. -/
def awkwardCall : EngineCall :=
  .extract
    { files := [0, 4294967295]
      dirs := ["a\"b\\c", "line\nbreak\r", "\x7b\"call\":\"abort\"\x7d"]
      language := some "ko\x01\x7f"
      output := "out/설치 \"1\".zip.part" }

theorem parse_render_call_awkward :
    awkwardCall.InRange ∧ '\n' ∉ awkwardCall.render.toList ∧
      Json.parse awkwardCall.render = .ok awkwardCall.value ∧ awkwardCall.render ≠ abortLine := by
  have hrange : awkwardCall.InRange := by
    intro id hid
    simp only [List.mem_cons, List.not_mem_nil, or_false] at hid
    rcases hid with rfl | rfl <;> decide
  obtain ⟨hline, hparse, -, -, habort⟩ := parse_render_call awkwardCall hrange
  exact ⟨hrange, hline, hparse, habort⟩

end EngineCall

end InstallerBrowser
