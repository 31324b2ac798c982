/-
# Answers to requests to compile

A request to compile is to be answered in one of three ways: it is a bad request, its crops
leave nothing of the frame, or it is served, with the errors of the script in the answer.
What is bad about a request is decided in `Request.Bad`, and what the service has to
answer in `Service.Answers`.

It does so unless the request breaks it (`answers_iff`), and `Request.Breaks` lists how:
JSON that is nested too deeply, media facts that reading does not foresee, a file name
among them that is no text, a number of too many digits, and a fade without an end. A
request that breaks the service gets no JSON and a status of 500.
-/
import ClipScript.Proofs.Cropping.Bounds
import ClipScript.Proofs.Json.Faults
import ClipScript.Proofs.Media.Reading
import ClipScript.Web.Service
import Mathlib.Data.List.Permutation

set_option autoImplicit false

namespace ClipScript.Web

variable {s : Service} {r : Request} {depth : Nat} {script : String} {ms : List (String × Json)}
  {d : Option Descriptor} {f : Fault}

/-! ## Requests -/

/-- **A request with a script:** its body is a JSON object that holds one, nested no deeper than can
be read. -/
structure Request.Asks (r : Request) (depth : Nat) (script : String) (ms : List (String × Json)) :
    Prop where
  json : r.header.isJson = true
  object : r.json? depth = some (.ok (.object ms))
  script : Json.get ms "script" = .text script

theorem Request.Asks.unique {script' : String} {ms' : List (String × Json)}
    (h : r.Asks depth script ms) (h' : r.Asks depth script' ms') : script = script' ∧ ms = ms' := by
  obtain rfl : ms = ms' := by
    have hobject := h.object.symm.trans h'.object
    simpa using hobject
  exact ⟨Json.text.inj (h.script.symm.trans h'.script), rfl⟩

/-- **A bad request:** without a script, with a file name that is neither a text nor null, or with
media facts that cannot be read. -/
inductive Request.Bad (r : Request) (depth : Nat) : Prop where
  | script (none : ∀ script ms, ¬ r.Asks depth script ms)
  | name {script : String} {ms : List (String × Json)} {name : String}
      (asks : r.Asks depth script ms) (mem : name ∈ ["input", "output"])
      (other : (Json.get ms name).isName = false)
  | descriptor {script : String} {ms : List (String × Json)} {f : Fault}
      (asks : r.Asks depth script ms) (given : (Json.get ms "descriptor").isGiven = true)
      (unread : Descriptor.ofJson (Json.get ms "descriptor") = .error f)

/-- The settings in a request. -/
def settingsOf (ms : List (String × Json)) : Settings :=
  { input := Json.get ms "input", output := Json.get ms "output"
    overwrite := (Json.get ms "overwrite").isGiven }

/-- **A request that is compiled,** since nothing is bad about it. -/
structure Request.Compiles (r : Request) (depth : Nat) (script : String)
    (ms : List (String × Json)) (d : Option Descriptor) : Prop where
  asks : r.Asks depth script ms
  descriptor : bodyDescriptor ms = .ok d
  names : notText? ms ["input", "output"] = none

/-- **Crops that leave nothing** of the frame of a request. -/
def Request.CropFault (r : Request) (depth : Nat) : Prop :=
  ∃ script ms d f, r.Compiles depth script ms d ∧ compile script d (settingsOf ms) = .error f ∧
    f.isCropBounds = true

/-- **What the service has to answer** to a request to compile. -/
structure Service.Answers (s : Service) (r : Request) (depth : Nat) : Prop where
  json : (s.answer r depth).json.isSome = true
  bad : r.Bad depth → (s.answer r depth).status = 400
  crop : ¬ r.Bad depth → r.CropFault depth → (s.answer r depth).status = 422
  served : ¬ r.Bad depth → ¬ r.CropFault depth → (s.answer r depth).status = 200

/-- **A request that breaks the service.** -/
inductive Request.Breaks (r : Request) (depth : Nat) : Prop where
  /-- JSON that is nested too deeply. -/
  | nesting {container : String} (json : r.header.isJson = true)
      (deep : r.json? depth = some (.error (.tooDeep container)))
  /-- Media facts that reading does not foresee. -/
  | descriptor {script : String} {ms members : List (String × Json)} (asks : r.Asks depth script ms)
      (object : Json.get ms "descriptor" = .object members)
      (unreadable : Descriptor.Unreadable members)
  /-- A number with too many digits. -/
  | digits {script : String} {ms : List (String × Json)} {d : Option Descriptor} {f : Fault}
      (compiles : r.Compiles depth script ms d)
      (fault : compile script d (settingsOf ms) = .error f) (digits : f.isDigitLimit = true)
  /-- A file name among the media facts that is not a text, where one is needed. -/
  | filename {script : String} {ms : List (String × Json)} {d : Descriptor}
      (compiles : r.Compiles depth script ms (some d)) (other : d.filename.isName = false)
      (fault : compile script (some d) (settingsOf ms) = .error .wrongKind)
  /-- A fade whose numbers are not finite. -/
  | fade {script : String} {ms : List (String × Json)} {d : Option Descriptor} {f : Fault}
      {parsed : Script Command} (compiles : r.Compiles depth script ms d)
      (reads : parse .bare script = .ok parsed) (endless : EndlessFade parsed.commands d)
      (fault : compile script d (settingsOf ms) = .error f) (infinite : f.isEndless = true)

/-! ## Names and media facts -/

theorem notText?_eq_none {names : List String} :
    notText? ms names = none ↔ ∀ name ∈ names, (Json.get ms name).isName = true := by
  rw [notText?, List.find?_eq_none]
  refine forall₂_congr fun name _ => ?_
  rcases Json.get ms name with _ | _ | _ | _ | _ | _ | _
  all_goals simp [Json.isName]

theorem name_of_notText? {names : List String} {name : String} (h : notText? ms names = some name) :
    name ∈ names ∧ (Json.get ms name).isName = false := by
  refine ⟨List.mem_of_find?_eq_some h, ?_⟩
  have hfound := List.find?_some h
  revert hfound
  rcases Json.get ms name with _ | _ | _ | _ | _ | _ | _
  all_goals simp [Json.isName]

theorem unreadable_ne_nil {members : List (String × Json)} (h : Descriptor.Unreadable members) :
    members ≠ [] := by
  rintro rfl
  rcases h with ⟨-, _, h, -⟩ | ⟨-, -, _, h, -⟩ | ⟨-, h, -⟩ | ⟨-, -, _, h⟩ | ⟨-, -, -, _, h⟩
  all_goals cases h

/-- The media facts of a request break reading exactly if they are there and do. -/
theorem failsWith_bodyDescriptor :
    FailsWith Fault.Unforeseen (bodyDescriptor ms) ↔
      ∃ members, Json.get ms "descriptor" = .object members ∧ Descriptor.Unreadable members := by
  rw [bodyDescriptor]
  split
  · rw [failsWith_map, Descriptor.failsWith_ofJson]
  · next hmissing =>
    constructor
    · exact fun h => absurd h not_failsWith_ok
    · rintro ⟨members, hobject, hunreadable⟩
      rw [hobject, Json.isGiven] at hmissing
      have hne := unreadable_ne_nil hunreadable
      simp [hne] at hmissing

theorem descriptor_of_error (h : bodyDescriptor ms = .error f) :
    (Json.get ms "descriptor").isGiven = true ∧
      Descriptor.ofJson (Json.get ms "descriptor") = .error f := by
  rw [bodyDescriptor] at h
  split at h
  · next hgiven =>
    refine ⟨hgiven, ?_⟩
    rcases hread : Descriptor.ofJson (Json.get ms "descriptor") with g | d
    · rw [hread] at h
      rw [Except.error.inj h]
    · rw [hread] at h
      cases h
  · cases h

/-! ## Scripts in requests -/

/-- The answer to a request without a script. -/
def missingScript : Response := refuse 400 "Body must contain a 'script' string"

theorem withScript_of_asks (hsize : s.exceeds r = false) (h : r.Asks depth script ms)
    (answer : String → List (String × Json) → Response) :
    s.withScript r depth answer = answer script ms := by
  rw [Service.withScript]
  simp [h.json, hsize, h.object, h.script]

/-- **A request without a script** is answered as one, unless its JSON is nested too deeply. -/
theorem withScript_of_not_asks (hsize : s.exceeds r = false)
    (h : ∀ script ms, ¬ r.Asks depth script ms)
    (answer : String → List (String × Json) → Response) :
    s.withScript r depth answer = missingScript ∨
      s.withScript r depth answer = broken ∧ r.header.isJson = true ∧
        ∃ container, r.json? depth = some (.error (.tooDeep container)) := by
  rw [Service.withScript]
  by_cases hjson : r.header.isJson = true
  · simp only [hjson, hsize, Bool.not_true, Bool.false_eq_true, if_false]
    split
    · next ms hobject =>
      split
      · next script hscript => exact absurd ⟨hjson, hobject, hscript⟩ (h script ms)
      · exact .inl rfl
    · exact .inl rfl
    · next f hf =>
      obtain ⟨text, -, hread⟩ := Option.map_eq_some_iff.1 hf
      split
      · exact .inl rfl
      · next hvalue =>
        rcases Json.read_failsOnly text depth f hread with hvalue' | ⟨container, rfl⟩
        · exact absurd hvalue' hvalue
        · exact .inr ⟨rfl, trivial, container, hf⟩
    · exact .inl rfl
  · rw [if_pos (by simpa using hjson)]
    exact .inl rfl

/-! ## Compiling -/

theorem compileAnswer_of_compiles (h : r.Compiles depth script ms d) :
    compileAnswer script ms =
      match compile script d (settingsOf ms) with
      | .error f => if f.isCropBounds then refuse 422 f.message else broken
      | .ok c =>
        serve [("args", texts c.args), ("command", .text c.command), ("errors", texts c.errors),
          ("warnings", texts c.warnings), ("parsed", texts c.snippets),
          ("diagnostics", diagnosticsJson c.diagnostics)] := by
  rw [compileAnswer, h.descriptor]
  simp only [h.names]
  rfl

/-- Such a request is not a bad one. -/
theorem Request.Compiles.not_bad (h : r.Compiles depth script ms d) : ¬ r.Bad depth := by
  rintro (hnone | ⟨hasks, hmem, hother⟩ | ⟨hasks, hgiven, hunread⟩)
  · exact hnone _ _ h.asks
  · obtain ⟨-, rfl⟩ := h.asks.unique hasks
    have hname := notText?_eq_none.1 h.names _ hmem
    rw [hother] at hname
    cases hname
  · obtain ⟨-, rfl⟩ := h.asks.unique hasks
    have hread := h.descriptor
    rw [bodyDescriptor] at hread
    simp only [hgiven, if_true, hunread] at hread
    cases hread

theorem Request.Compiles.unique {script' : String} {ms' : List (String × Json)}
    {d' : Option Descriptor} (h : r.Compiles depth script ms d)
    (h' : r.Compiles depth script' ms' d') :
    script = script' ∧ ms = ms' ∧ d = d' := by
  obtain ⟨rfl, rfl⟩ := h.asks.unique h'.asks
  exact ⟨rfl, rfl, Except.ok.inj (h.descriptor.symm.trans h'.descriptor)⟩

/-- **What a request that is compiled breaks the service with.** -/
theorem breaks_of_compile (h : r.Compiles depth script ms d)
    (hf : compile script d (settingsOf ms) = .error f) (hcrop : f.isCropBounds = false) :
    r.Breaks depth := by
  rcases compile_error_cases hf with hdigits | ⟨rfl, hnamed⟩ | ⟨p, hp, hbounds | ⟨hendless, hfade⟩⟩
  · exact .digits h hf hdigits
  · -- the other names are texts or null, so it is that of the media file
    have hnames := notText?_eq_none.1 h.names
    have hother : ∃ d', d = some d' ∧ d'.filename.isName = false := by
      by_contra hnone
      refine hnamed ⟨hnames "input" (by simp), hnames "output" (by simp), fun d' hd' => ?_⟩
      by_contra hname
      exact hnone ⟨d', hd', by simpa using hname⟩
    obtain ⟨d', rfl, hother⟩ := hother
    exact .filename h hother hf
  · rcases checkBounds_failsOnly _ _ f hbounds with hcrop' | rfl
    · rw [hcrop] at hcrop'
      cases hcrop'
    · exact .digits h hf rfl
  · exact .fade h hp hfade hf hendless

/-- No fault of these kinds is one of the crops. -/
theorem broken_of_compile (h : r.Compiles depth script ms d)
    (hf : compile script d (settingsOf ms) = .error f) (hcrop : f.isCropBounds = false) :
    compileAnswer script ms = broken := by
  rw [compileAnswer_of_compiles h, hf]
  simp only [hcrop]
  rfl

/-- **A request that breaks the service** gets no answer. -/
theorem compileAnswer_of_breaks (hsize : s.exceeds r = false) (h : r.Breaks depth) :
    s.withScript r depth compileAnswer = broken := by
  rcases h with ⟨hjson, hdeep⟩ | ⟨hasks, hobject, hunreadable⟩ | ⟨hcompiles, hf, hdigits⟩ |
    ⟨hcompiles, -, hf⟩ | ⟨hcompiles, -, -, hf, hinfinite⟩
  · rw [Service.withScript]
    simp [hjson, hsize, hdeep, Fault.isValue, Fault.family, Fault.Family.isValue]
  · obtain ⟨f, hf, hvalue, hkind⟩ := failsWith_bodyDescriptor.2 ⟨_, hobject, hunreadable⟩
    rw [withScript_of_asks hsize hasks, compileAnswer, hf]
    simp [hvalue, hkind]
  · rw [withScript_of_asks hsize hcompiles.asks]
    exact broken_of_compile hcompiles hf (Fault.isCropBounds_of_isDigitLimit hdigits)
  · rw [withScript_of_asks hsize hcompiles.asks]
    exact broken_of_compile hcompiles hf rfl
  · rw [withScript_of_asks hsize hcompiles.asks]
    exact broken_of_compile hcompiles hf (Fault.isCropBounds_of_isEndless hinfinite)

/-- **A request that is compiled** is answered, unless it breaks the service. -/
theorem answers_of_compiles (hcompiles : r.Compiles depth script ms d)
    (hanswer : s.answer r depth = compileAnswer script ms) (h : ¬ r.Breaks depth) :
    s.Answers r depth := by
  have hgood := hcompiles.not_bad
  rw [compileAnswer_of_compiles hcompiles] at hanswer
  rcases hcompile : compile script d (settingsOf ms) with f | c
  · rw [hcompile] at hanswer
    by_cases hcrop : f.isCropBounds = true
    · simp only [hcrop, if_true] at hanswer
      refine ⟨by rw [hanswer]; rfl, fun hbad => absurd hbad hgood, fun _ _ => by rw [hanswer]; rfl,
        fun _ hnot => absurd ⟨script, ms, d, f, hcompiles, hcompile, hcrop⟩ hnot⟩
    · exact absurd (breaks_of_compile hcompiles hcompile (by simpa using hcrop)) h
  · rw [hcompile] at hanswer
    refine ⟨by rw [hanswer]; rfl, fun hbad => absurd hbad hgood, fun _ hcrop => ?_,
      fun _ _ => by rw [hanswer]; rfl⟩
    -- there is a result, so no crops went wrong
    obtain ⟨script', ms', d', f, hcompiles', hfault, -⟩ := hcrop
    obtain ⟨rfl, rfl, rfl⟩ := hcompiles.unique hcompiles'
    cases hcompile.symm.trans hfault

/-- **Every other request** to compile is answered. -/
theorem answers_of_not_breaks (hanswer : s.answer r depth = s.withScript r depth compileAnswer)
    (hsize : s.exceeds r = false) (h : ¬ r.Breaks depth) : s.Answers r depth := by
  -- a request that is refused is a bad one, and has no crops to blame
  have refused : ∀ message, s.answer r depth = refuse 400 message → r.Bad depth →
      s.Answers r depth := by
    intro message hrefused hbad
    refine ⟨by rw [hrefused]; rfl, fun _ => by rw [hrefused]; rfl, fun hnot => absurd hbad hnot,
      fun hnot => absurd hbad hnot⟩
  by_cases hasks : ∃ script ms, r.Asks depth script ms
  · obtain ⟨script, ms, hasks⟩ := hasks
    rw [withScript_of_asks hsize hasks] at hanswer
    rcases hdescriptor : bodyDescriptor ms with f | d
    · rw [compileAnswer, hdescriptor] at hanswer
      obtain ⟨hgiven, hunread⟩ := descriptor_of_error hdescriptor
      by_cases hunforeseen : f.Unforeseen
      · obtain ⟨members, hobject, hunreadable⟩ :=
          failsWith_bodyDescriptor.1 ⟨f, hdescriptor, hunforeseen⟩
        exact absurd (.descriptor hasks hobject hunreadable) h
      · have hforeseen : (f.isValue || f.isWrongKind) = true := by
          by_contra hnot
          exact hunforeseen (by simpa [Fault.Unforeseen] using hnot)
        simp only [hforeseen, if_true] at hanswer
        exact refused _ hanswer (.descriptor hasks hgiven hunread)
    · rcases hnames : notText? ms ["input", "output"] with _ | name
      · exact answers_of_compiles ⟨hasks, hdescriptor, hnames⟩ hanswer h
      · rw [compileAnswer, hdescriptor] at hanswer
        simp only [hnames] at hanswer
        obtain ⟨hmem, hother⟩ := name_of_notText? hnames
        exact refused _ hanswer (.name hasks hmem hother)
  · have hnone : ∀ script ms, ¬ r.Asks depth script ms := fun script ms hasks' =>
      hasks ⟨script, ms, hasks'⟩
    rcases withScript_of_not_asks hsize hnone compileAnswer with hmissing | ⟨-, hjson, _, hdeep⟩
    · exact refused _ (hanswer.trans hmissing) (.script hnone)
    · exact absurd (.nesting hjson hdeep) h

/-! ## The service -/

theorem answer_compile (hroute : Route.ofPath? (pathOf r.target.toList) = some .compile)
    (hverb : r.verb = "POST") : s.answer r depth = s.withScript r depth compileAnswer := by
  have htakes : Route.compile.takes r = true := by simp [Route.takes, Route.method, hverb]
  rw [Service.answer]
  simp only [hroute, htakes, if_true]
  rfl

/-- **A request to compile is answered as it has to be** exactly if it does not break the service,
and otherwise it gets no answer. -/
theorem answers_iff (hroute : Route.ofPath? (pathOf r.target.toList) = some .compile)
    (hverb : r.verb = "POST") (hsize : s.exceeds r = false) :
    (s.Answers r depth ↔ ¬ r.Breaks depth) ∧ (r.Breaks depth → s.answer r depth = broken) := by
  have hanswer := @answer_compile s r depth hroute hverb
  have hbroken : r.Breaks depth → s.answer r depth = broken := fun h =>
    hanswer.trans (compileAnswer_of_breaks hsize h)
  refine ⟨⟨fun hanswers hbreaks => ?_, answers_of_not_breaks hanswer hsize⟩, hbroken⟩
  have hjson := hanswers.json
  rw [hbroken hbreaks] at hjson
  cases hjson

/-- A service with the usual limit. -/
def localService : Service := ⟨none, 2048, "work"⟩

/-- A request to compile with some JSON. -/
def compileRequest (body : String) : Request :=
  ⟨"POST", "/api/compile", some "application/json", body⟩

theorem route_compileRequest (body : String) :
    Route.ofPath? (pathOf (compileRequest body).target.toList) = some .compile := by
  show Route.ofPath? (pathOf "/api/compile".toList) = some .compile
  decide

theorem json?_compileRequest {body : String} {j : Json}
    (hbody : Json.decode? (Body.ofText body).bytes = some body) (hread : Json.read body = .ok j) :
    (compileRequest body).json? Json.nestingLimit = some (.ok j) := by
  have hdecoded : Json.decode? (compileRequest body).body.bytes = some body := hbody
  rw [Request.json?, hdecoded, Option.map_some, hread]

/-- A crop that leaves nothing of the width. -/
def narrowBody : String :=
  "\x7b\"script\":\"crop 100px from left\",\"descriptor\":\x7b\"width\":100,\"height\":50\x7d\x7d"

theorem answers_narrowBody : localService.Answers (compileRequest narrowBody) Json.nestingLimit ∧
    (localService.answer (compileRequest narrowBody)).status = 422 := by
  have hroute := route_compileRequest narrowBody
  have hverb : (compileRequest narrowBody).verb = "POST" := rfl
  have hsize : localService.exceeds (compileRequest narrowBody) = false := by decide +kernel
  have hcompiles : (compileRequest narrowBody).Compiles Json.nestingLimit "crop 100px from left"
      [("script", .text "crop 100px from left"),
        ("descriptor", .object [("width", .whole 100), ("height", .whole 50)])]
      (some { width := some 100, height := some 50 }) :=
    ⟨⟨by decide +kernel, json?_compileRequest (by decide +kernel) (by rw [narrowBody]; cbv), rfl⟩,
      rfl, rfl⟩
  obtain ⟨f, hf, hcrop⟩ : ∃ f, compile "crop 100px from left"
      (some { width := some 100, height := some 50 }) {} = .error f ∧ f.isCropBounds = true := by
    have hcrop : ((compile "crop 100px from left" (some { width := some 100, height := some 50 })
        {}).mapError Fault.isCropBounds).map (fun _ => ()) = .error true := by
      decide +kernel
    rcases hf : compile "crop 100px from left" (some { width := some 100, height := some 50 })
      {} with f | plan
    · rw [hf] at hcrop
      exact ⟨f, rfl, Except.error.inj hcrop⟩
    · rw [hf] at hcrop
      cases hcrop
  have hstatus : (localService.answer (compileRequest narrowBody)).status = 422 := by
    have hf' : compile "crop 100px from left" (some { width := some 100, height := some 50 })
        (settingsOf [("script", .text "crop 100px from left"),
          ("descriptor", .object [("width", .whole 100), ("height", .whole 50)])]) = .error f := hf
    rw [answer_compile hroute hverb, withScript_of_asks hsize hcompiles.asks,
      compileAnswer_of_compiles hcompiles, hf']
    simp only [hcrop, if_true]
    rfl
  obtain ⟨hiff, hbroken⟩ :=
    @answers_iff localService (compileRequest narrowBody) Json.nestingLimit hroute hverb hsize
  refine ⟨hiff.2 fun hbreaks => ?_, hstatus⟩
  -- a request that breaks the service has another status
  rw [hbroken hbreaks] at hstatus
  cases hstatus

/-- A resolution that is a number. -/
def resolutionBody : String :=
  "\x7b\"script\":\"compress video\",\"descriptor\":\x7b\"resolution\":5\x7d\x7d"

/-- **Not every request is answered:** media facts that cannot be read are to be refused. -/
theorem answer_resolutionBody :
    localService.answer (compileRequest resolutionBody) = broken ∧
      (compileRequest resolutionBody).Bad Json.nestingLimit ∧
      ¬ ∀ (s : Service) (r : Request) (depth : Nat),
        Route.ofPath? (pathOf r.target.toList) = some .compile →
          r.verb = "POST" → s.exceeds r = false → s.Answers r depth := by
  have hroute := route_compileRequest resolutionBody
  have hverb : (compileRequest resolutionBody).verb = "POST" := rfl
  have hsize : localService.exceeds (compileRequest resolutionBody) = false := by decide +kernel
  have hasks : (compileRequest resolutionBody).Asks Json.nestingLimit "compress video"
      [("script", .text "compress video"), ("descriptor", .object [("resolution", .whole 5)])] :=
    ⟨by decide +kernel, json?_compileRequest (by decide +kernel) (by rw [resolutionBody]; cbv), rfl⟩
  have hunreadable : Descriptor.Unreadable [("resolution", .whole 5)] :=
    .resolution ⟨⟨_, rfl⟩, ⟨_, rfl⟩, ⟨_, rfl⟩⟩ rfl (by rintro _ ⟨⟩)
  have hbroken : localService.answer (compileRequest resolutionBody) = broken :=
    (answer_compile hroute hverb).trans
      (compileAnswer_of_breaks hsize (.descriptor hasks rfl hunreadable))
  refine ⟨hbroken, .descriptor hasks rfl rfl, fun hall => ?_⟩
  have hjson := (hall _ _ Json.nestingLimit hroute hverb hsize).json
  rw [hbroken] at hjson
  cases hjson

end ClipScript.Web
