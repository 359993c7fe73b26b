import BackgroundAgents.Sandbox.EventSizeLaws

/-!
# Tool calls that are cut to fit

The size that `truncate_tool_call` keeps count of is the size of its copy after every
cut (`shrink_size`), and a cut that is still too large has emptied its text
(`replacement_spec`). So the loop ends below the limit or with every candidate
emptied (`shrinkAll_spec`), and then nothing that may be cut is left.
-/

namespace BackgroundAgents.Sandbox.EventSize

open Json (textSize getAt setAt room)

/-- A tool call as it is handed over: a dictionary with arguments, and no marker yet. -/
structure ToolCall where
  entries : Event
  args : Json
  keys : (entries.map Prod.fst).Nodup
  hasArgs : Dict.get? entries (asText "args") = some args
  unmarked : asText "truncated" ∉ entries.map Prod.fst

namespace ToolCall

variable (call : ToolCall)

/-- The output that may be cut. -/
def output : Option Text := (Dict.get? call.entries (asText "output")).bind filledText

def originalBytes : Nat := eventSizeBytes call.entries

/-- The copy that the cuts have made. -/
def copy (cut : Cutting) : Event := cut.result call.entries call.originalBytes

end ToolCall

/-! ## The size of the copy -/

theorem room_append (between x : Nat) (sizes : List Nat) :
    room between (sizes ++ [x]) = room between sizes + (x + if sizes = [] then 0 else between) := by
  unfold room
  cases sizes with
  | nil =>
    show x + 0 + 0 + 2 = 0 + 0 + 2 + (x + 0)
    omega
  | cons y sizes =>
    rw [if_neg (List.cons_ne_nil _ _), List.sum_append, List.sum_singleton, List.length_append,
      List.length_singleton, Nat.add_sub_cancel, List.length_cons, Nat.add_sub_cancel, Nat.mul_add]
    omega

theorem room_perm {between : Nat} {sizes sizes' : List Nat} (h : sizes.Perm sizes') :
    room between sizes = room between sizes' := by
  unfold room
  rw [h.sum_eq, h.length_eq]

theorem size_marker (fields : List Text) (n : Nat) :
    Json.size Json.spaced (marker fields n) + 2 =
      Json.size Json.spaced (marker [] n) + room 2 (fields.map textSize) := by
  have harr : ∀ fields : List Text, Json.size Json.spaced (.arr (fields.map .str)) =
      room 2 (fields.map textSize) := by
    intro fields
    rw [Json.size_arr, List.map_map]
    rfl
  have hmarker : ∀ fields : List Text, Json.size Json.spaced (marker fields n) =
      textSize (asText "fields") + 2 + Json.size Json.spaced (.arr (fields.map .str)) +
        (Json.entrySize Json.spaced (asText "originalBytes", .num (Nat.toDigits 10 n)) + 4) := by
    intro fields
    unfold marker
    rw [Json.size_obj]
    show room 2 [Json.entrySize _ _, Json.entrySize _ _] = _
    unfold room
    rw [List.sum_cons, List.sum_singleton]
    show textSize (asText "fields") + 2 + Json.size Json.spaced (.arr (fields.map .str)) + _ + 2 +
      2 = _
    omega
  rw [hmarker, hmarker, harr, harr]
  show _ = _ + room 2 [] + _ + _
  have hnil : room 2 [] = 2 := rfl
  omega

theorem args_ne_truncated : asText "args" ≠ asText "truncated" := by decide

theorem args_ne_output : asText "args" ≠ asText "output" := by decide

theorem truncated_ne_output : asText "truncated" ≠ asText "output" := by decide

namespace ToolCall

variable (call : ToolCall)

theorem mem_args : asText "args" ∈ call.entries.map Prod.fst := by
  by_contra hnot
  have hnone := Dict.get?_of_notMem hnot
  rw [call.hasArgs] at hnone
  cases hnone

/-- The size of a copy, from that of the event and of what differs. -/
theorem size_copy (cut : Cutting) (houtput : cut.output.isSome = true → call.output.isSome = true) :
    eventSizeBytes (call.copy cut) + Json.size Json.spaced call.args +
        textSize (call.output.getD []) =
      call.originalBytes + (4 + textSize (asText "truncated")) +
        Json.size Json.spaced (marker cut.fields call.originalBytes) +
        Json.size Json.spaced cut.args + textSize (cut.output.getD (call.output.getD [])) := by
  have hargs := Json.size_set Json.spaced cut.args call.keys call.hasArgs
  have hkeys := Dict.nodup_set call.keys (asText "args") cut.args
  have hnames : (Dict.set call.entries (asText "args") cut.args).map Prod.fst =
      call.entries.map Prod.fst := by
    rw [Dict.keys_set, if_pos call.mem_args]
  have hnew : asText "truncated" ∉
      (Dict.set call.entries (asText "args") cut.args).map Prod.fst := by
    rw [hnames]
    exact call.unmarked
  have hne : Dict.set call.entries (asText "args") cut.args ≠ [] := by
    intro he
    rw [he] at hnames
    have hmem := call.mem_args
    rw [← hnames] at hmem
    cases hmem
  have hmarked := Json.size_set_new Json.spaced (marker cut.fields call.originalBytes)
    hne hnew
  have hentry : Json.entrySize Json.spaced
      (asText "truncated", marker cut.fields call.originalBytes) =
      textSize (asText "truncated") + 2 +
        Json.size Json.spaced (marker cut.fields call.originalBytes) := rfl
  have hitem : Json.spaced.item.length = 2 := rfl
  unfold copy Cutting.result originalBytes eventSizeBytes
  unfold originalBytes eventSizeBytes at hmarked hentry
  cases hcut : cut.output with
  | none =>
    dsimp only [Option.getD_none]
    omega
  | some text =>
    obtain ⟨old, hold⟩ := Option.isSome_iff_exists.mp (houtput (by rw [hcut]; rfl))
    obtain ⟨value, hvalue, hfilled⟩ := Option.bind_eq_some_iff.mp hold
    rw [(filledText_some hfilled).1] at hvalue
    have hget : Dict.get? (Dict.set (Dict.set call.entries (asText "args") cut.args)
        (asText "truncated") (marker cut.fields call.originalBytes)) (asText "output") =
        some (.str old) := by
      rw [Dict.get?_set, if_neg truncated_ne_output, Dict.get?_set, if_neg args_ne_output, hvalue]
    have hset := Json.size_set Json.spaced (.str text)
      (Dict.nodup_set hkeys _ _) hget
    rw [Json.size_str, Json.size_str] at hset
    unfold originalBytes eventSizeBytes at hset
    rw [hold]
    dsimp only [Option.getD_some]
    omega

end ToolCall

/-! ## One cut -/

theorem size_marker_append (fields : List Text) (path : Text) (n : Nat) :
    Json.size Json.spaced (marker (fields ++ [path]) n) =
      Json.size Json.spaced (marker fields n) + Cutting.fieldSize fields path := by
  have hbefore := size_marker fields n
  have hafter := size_marker (fields ++ [path]) n
  have hroom := room_append 2 (textSize path) (fields.map textSize)
  rw [List.map_append, List.map_singleton] at hafter
  simp only [List.map_eq_nil_iff] at hroom
  unfold Cutting.fieldSize
  omega

section Cuts

variable (call : ToolCall) {cut : Cutting} {place : Place} {path text : Text}

/-- The text that is to be cut stands in its place. -/
def Cutting.Has (cut : Cutting) : Place → Text → Prop
  | .output, text => cut.output = none ∧ call.output = some text
  | .arg place, text => getAt cut.args place = some (.str text)

/-- The size is that of the copy. -/
structure Counted (cut : Cutting) : Prop where
  size : cut.sizeBytes = eventSizeBytes (call.copy cut)
  output : cut.output.isSome = true → call.output.isSome = true

variable {call}

/-- The size is still that of the copy after a cut. -/
theorem Counted.shrink (h : Counted call cut) (place : Place) (hhas : cut.Has call place text)
    (path : Text) : Counted call (cut.shrink place path text) := by
  have hmarker := size_marker_append cut.fields path call.originalBytes
  have hbefore := call.size_copy cut h.output
  have hsize := h.size
  cases place with
  | output =>
    obtain ⟨hnone, hsome⟩ := hhas
    have houtput : (cut.shrink .output path text).output.isSome = true →
        call.output.isSome = true := fun _ => by rw [hsome]; rfl
    refine ⟨?_, houtput⟩
    have hafter := call.size_copy _ houtput
    rw [hnone, hsome] at hbefore
    rw [hsome] at hafter
    have hargs : (cut.shrink .output path text).args = cut.args := rfl
    have hfields : (cut.shrink .output path text).fields = cut.fields ++ [path] := rfl
    have hcut : (cut.shrink .output path text).output = some (cut.replacement path text) := rfl
    rw [hargs, hfields, hcut, hmarker] at hafter
    dsimp only [Option.getD_none, Option.getD_some] at hbefore hafter
    show cut.sizeBytes + Cutting.fieldSize cut.fields path - textSize text +
      textSize (cut.replacement path text) = _
    omega
  | arg place =>
    have houtput : (cut.shrink (.arg place) path text).output.isSome = true →
        call.output.isSome = true := h.output
    refine ⟨?_, houtput⟩
    have hafter := call.size_copy _ houtput
    have hset := Json.size_setAt Json.spaced (.str (cut.replacement path text)) hhas
    have hargs : (cut.shrink (.arg place) path text).args =
        setAt cut.args place (.str (cut.replacement path text)) := rfl
    have hfields : (cut.shrink (.arg place) path text).fields = cut.fields ++ [path] := rfl
    have hcut : (cut.shrink (.arg place) path text).output = cut.output := rfl
    rw [hargs, hfields, hcut, hmarker] at hafter
    rw [Json.size_str, Json.size_str] at hset
    show cut.sizeBytes + Cutting.fieldSize cut.fields path - textSize text +
      textSize (cut.replacement path text) = _
    omega

/-- A text that is cut from a copy which is too large gets shorter, and if the copy is still
too large, then nothing of the text is left. -/
theorem replacement_spec (place : Place) (path : Text) (hlarge : MAX_EVENT_BYTES < cut.sizeBytes) (hne : text ≠ []) :
    cut.replacement path text <+: text ∧ cut.replacement path text ≠ text ∧
      (MAX_EVENT_BYTES < (cut.shrink place path text).sizeBytes →
        cut.replacement path text = []) := by
  have hsize : (cut.shrink place path text).sizeBytes =
      cut.sizeBytes + Cutting.fieldSize cut.fields path - textSize text +
        textSize (cut.replacement path text) := rfl
  rw [hsize]
  unfold Cutting.replacement
  dsimp only
  split
  next hroom =>
    have hbudget : (2 : Int) ≤ MAX_EVENT_BYTES -
        (cut.sizeBytes + Cutting.fieldSize cut.fields path - textSize text) := by omega
    obtain ⟨hfits, _⟩ := fitJsonString_spec text hbudget
    refine ⟨fitJsonString_initial _ _, ?_, ?_⟩
    · intro he
      rw [he] at hfits
      omega
    · intro hstill
      omega
  next => exact ⟨List.nil_prefix, Ne.symm hne, fun _ => rfl⟩

/-! ## The loop -/

/-- The arguments with the texts of the candidates replaced. -/
def replaceAll (args : Json) (done : List (Candidate × Text)) : Json :=
  done.foldl (fun args d => setAt args d.1.place (.str d.2)) args

/-- The candidates stand in the arguments, each in a place of its own. -/
def Standing (args : Json) (cs : List Candidate) : Prop :=
  (cs.map Candidate.place).Nodup ∧
    ∀ c ∈ cs, getAt args c.place = some (.str c.text) ∧ c.text ≠ []

/-- A cut leaves the other candidates standing. -/
theorem Standing.replaced {args : Json} {c : Candidate} {cs : List Candidate}
    (h : Standing args (c :: cs)) (text : Text) :
    Standing (setAt args c.place (.str text)) cs := by
  obtain ⟨hplaces, hstand⟩ := h
  rw [List.map_cons, List.nodup_cons] at hplaces
  refine ⟨hplaces.2, ?_⟩
  intro d hd
  have hne : c.place ≠ d.place := fun he => hplaces.1 (he ▸ List.mem_map.mpr ⟨d, hd, rfl⟩)
  refine ⟨?_, (hstand d (List.mem_cons_of_mem c hd)).2⟩
  exact Json.getAt_setAt_ne _ rfl (hstand c List.mem_cons_self).1
    (hstand d (List.mem_cons_of_mem c hd)).1 hne

theorem size_replaceAll : ∀ (done : List (Candidate × Text)) (args : Json),
    Standing args (done.map Prod.fst) →
      Json.size Json.spaced (replaceAll args done) +
          (done.map fun d => textSize d.1.text).sum =
        Json.size Json.spaced args + (done.map fun d => textSize d.2).sum
  | [], _, _ => rfl
  | d :: done, args, h => by
    have ih := size_replaceAll done _ (h.replaced d.2)
    have hset := Json.size_setAt Json.spaced (.str d.2)
      (h.2 d.1 List.mem_cons_self).1
    rw [Json.size_str, Json.size_str] at hset
    show Json.size Json.spaced (replaceAll (setAt args d.1.place (.str d.2)) done) + _ = _
    rw [List.map_cons, List.map_cons, List.sum_cons, List.sum_cons]
    omega

/-- What is no candidate that was cut stays as it was. -/
theorem getAt_replaceAll {place : List Nat} {value : Json} (hscalar : value.isScalar = true) :
    ∀ (done : List (Candidate × Text)) (args : Json), Standing args (done.map Prod.fst) →
      getAt args place = some value → place ∉ done.map (·.1.place) →
        getAt (replaceAll args done) place = some value
  | [], _, _, h, _ => h
  | d :: done, args, hstanding, h, hnot => by
    rw [List.map_cons, List.mem_cons, not_or] at hnot
    have hset := Json.getAt_setAt_ne (.str d.2) hscalar
      (hstanding.2 d.1 List.mem_cons_self).1 h (Ne.symm hnot.1)
    exact getAt_replaceAll hscalar done _ (hstanding.replaced d.2) hset hnot.2

theorem getAt_replaced : ∀ (done : List (Candidate × Text)) (args : Json),
    Standing args (done.map Prod.fst) → ∀ d ∈ done,
      getAt (replaceAll args done) d.1.place = some (.str d.2)
  | [], _, _, _, hd => absurd hd List.not_mem_nil
  | d :: done, args, hstanding, d', hd' => by
    have hnot : d.1.place ∉ done.map (·.1.place) := by
      have hplaces := hstanding.1
      rw [List.map_cons, List.map_cons, List.nodup_cons, List.map_map] at hplaces
      exact hplaces.1
    rcases List.mem_cons.mp hd' with rfl | hd'
    · refine getAt_replaceAll rfl done _ (hstanding.replaced d'.2) ?_ hnot
      exact Json.getAt_setAt_self (hstanding.2 d'.1 List.mem_cons_self).1
    · exact getAt_replaced done _ (hstanding.replaced d.2) d' hd'

/-- Each text that was cut is a shorter prefix of what it was. -/
def Shortened (done : List (Candidate × Text)) : Prop :=
  ∀ d ∈ done, d.2 <+: d.1.text ∧ d.2 ≠ d.1.text

/-- The loop cuts the first of the candidates, and all of them to nothing when the copy is
still too large at its end. -/
theorem shrinkAll_spec : ∀ (cs : List Candidate) {cut : Cutting}, Counted call cut →
    MAX_EVENT_BYTES < cut.sizeBytes → Standing cut.args cs →
      ∃ done rest, cs = done.map Prod.fst ++ rest ∧ Shortened done ∧
        Counted call (cut.shrinkAll cs) ∧ (cut.shrinkAll cs).output = cut.output ∧
        (cut.shrinkAll cs).args = replaceAll cut.args done ∧
        (cut.shrinkAll cs).fields = cut.fields ++ done.map (·.1.path) ∧
        (MAX_EVENT_BYTES < (cut.shrinkAll cs).sizeBytes → rest = [] ∧ ∀ d ∈ done, d.2 = [])
  | [], cut, hcounted, _, _ =>
    ⟨[], [], rfl, fun _ hd => absurd hd List.not_mem_nil, hcounted, rfl, rfl,
      (List.append_nil _).symm, fun _ => ⟨rfl, fun _ hd => absurd hd List.not_mem_nil⟩⟩
  | c :: cs, cut, hcounted, hlarge, hstanding => by
    obtain ⟨hget, hne⟩ := hstanding.2 c List.mem_cons_self
    obtain ⟨hinitial, hshorter, hempty⟩ :=
      replacement_spec (.arg c.place) c.path hlarge hne
    have hcounted' : Counted call (cut.shrink (.arg c.place) c.path c.text) :=
      hcounted.shrink (.arg c.place) hget c.path
    rw [Cutting.shrinkAll]
    split
    next hfits =>
      refine ⟨[(c, cut.replacement c.path c.text)], cs, rfl, ?_, hcounted', rfl, rfl, rfl, ?_⟩
      · intro d hd
        rw [List.mem_singleton.mp hd]
        exact ⟨hinitial, hshorter⟩
      · intro hstill
        omega
    next hfits =>
      have hstill : (MAX_EVENT_BYTES : Int) <
          (cut.shrink (.arg c.place) c.path c.text).sizeBytes := by omega
      obtain ⟨done, rest, hsplit, hdone, hcounted, houtput, hargs, hfields, hend⟩ :=
        shrinkAll_spec cs hcounted' hstill (hstanding.replaced _)
      refine ⟨(c, cut.replacement c.path c.text) :: done, rest, ?_, ?_, hcounted, houtput, hargs,
        ?_, ?_⟩
      · rw [hsplit]
        rfl
      · exact List.forall_mem_cons.mpr ⟨⟨hinitial, hshorter⟩, hdone⟩
      · rw [hfields]
        exact List.append_assoc _ _ _
      · intro h
        obtain ⟨hrest, hnothing⟩ := hend h
        exact ⟨hrest, List.forall_mem_cons.mpr ⟨hempty hstill, hnothing⟩⟩

end Cuts

/-! ## The whole call -/

namespace ToolCall

variable (lower : Text → Text) (call : ToolCall)

/-- The copy with another output, if it was cut, and with the texts of the candidates replaced;
its marker names these. -/
def cutTo (output : Option Text) (done : List (Candidate × Text)) : Event :=
  call.copy
    { args := replaceAll call.args done
      output := output
      fields := (output.map fun _ => asText "output").toList ++ done.map (·.1.path)
      sizeBytes := 0 }

/-- Nothing is left of the output and of the strings that are no paths. -/
def emptied : Event :=
  call.cutTo (call.output.map fun _ => [])
    ((argStrings lower call.args (asText "args")).map fun c => (c, []))

theorem argStrings_standing :
    Standing call.args (argStrings lower call.args (asText "args")) :=
  ⟨argStrings_places call.args _, fun _ hc =>
    ⟨(mem_argStrings call.args _ hc).1, (mem_argStrings call.args _ hc).2.1⟩⟩

theorem candidates_standing : Standing call.args (candidates lower call.args) := by
  obtain ⟨hplaces, hstand⟩ := call.argStrings_standing lower
  have hperm := candidates_perm lower call.args
  exact ⟨((hperm.map Candidate.place).nodup_iff).mpr hplaces, fun _ hc => hstand _ (hperm.mem_iff.mp hc)⟩

/-- A copy is what its arguments, its output and its marker make it. -/
theorem copy_eq {cut : Cutting} (done : List (Candidate × Text))
    (hargs : cut.args = replaceAll call.args done)
    (hfields : cut.fields =
      (cut.output.map fun _ => asText "output").toList ++ done.map (·.1.path)) :
    call.copy cut = call.cutTo cut.output done := by
  unfold cutTo copy Cutting.result
  rw [hargs, hfields]

/-- What the first cut, that of the output, leaves. -/
structure OutputCut (cut : Cutting) : Prop where
  counted : Counted call cut
  args : cut.args = call.args
  fields : cut.fields = (cut.output.map fun _ => asText "output").toList
  shorter : ∀ text, cut.output = some text →
    ∃ old, call.output = some old ∧ text <+: old ∧ text ≠ old
  emptied : MAX_EVENT_BYTES < cut.sizeBytes → cut.output = call.output.map fun _ => []

theorem cutOutput_spec (hlarge : MAX_EVENT_BYTES < call.originalBytes) :
    call.OutputCut
      ((Cutting.start call.entries call.originalBytes call.args).cutOutput call.entries) := by
  have hstart : Counted call (Cutting.start call.entries call.originalBytes call.args) :=
    ⟨rfl, fun h => Bool.noConfusion h⟩
  have hsize : (MAX_EVENT_BYTES : Int) <
      (Cutting.start call.entries call.originalBytes call.args).sizeBytes := by
    have hcopy := call.size_copy _ hstart.output
    have hargs : (Cutting.start call.entries call.originalBytes call.args).args = call.args := rfl
    have hnone : (Cutting.start call.entries call.originalBytes call.args).output = none := rfl
    rw [hargs, hnone, Option.getD_none] at hcopy
    rw [hstart.size]
    omega
  unfold Cutting.cutOutput
  rw [show (Dict.get? call.entries (asText "output")).bind filledText = call.output from rfl]
  cases houtput : call.output with
  | none =>
    exact
      { counted := hstart
        args := rfl
        fields := rfl
        shorter := fun text h => by cases h
        emptied := fun _ => by rw [houtput]; rfl }
  | some old =>
    obtain ⟨value, _, hfilled⟩ := Option.bind_eq_some_iff.mp houtput
    obtain ⟨hinitial, hshorter, hempty⟩ :=
      replacement_spec .output (asText "output") hsize (filledText_some hfilled).2
    exact
      { counted := hstart.shrink .output ⟨rfl, houtput⟩ (asText "output")
        args := rfl
        fields := rfl
        shorter := by
          intro text htext
          rw [← Option.some.inj htext]
          exact ⟨old, houtput, hinitial, hshorter⟩
        emptied := by
          intro hstill
          rw [houtput]
          exact congrArg some (hempty hstill) }

/-- The names in the marker of such a copy. -/
def cutFields (output : Option Text) (done : List (Candidate × Text)) : List Text :=
  (output.map fun _ => asText "output").toList ++ done.map (·.1.path)

theorem size_cutTo {output : Option Text} (done : List (Candidate × Text))
    (houtput : output.isSome = true → call.output.isSome = true) :
    eventSizeBytes (call.cutTo output done) + Json.size Json.spaced call.args +
        textSize (call.output.getD []) + 2 =
      call.originalBytes + (4 + textSize (asText "truncated")) +
        Json.size Json.spaced (marker [] call.originalBytes) +
        room 2 ((cutFields output done).map textSize) +
        Json.size Json.spaced (replaceAll call.args done) +
        textSize (output.getD (call.output.getD [])) := by
  have hcopy := call.size_copy {
    args := replaceAll call.args done
    output := output
    fields := cutFields output done
    sizeBytes := 0 } houtput
  have hmarker := size_marker (cutFields output done) call.originalBytes
  dsimp only at hcopy
  unfold cutTo
  unfold cutFields at hcopy hmarker ⊢
  omega

/-- In whichever order the candidates are emptied, the copy has the same size. -/
theorem size_emptied {cs cs' : List Candidate} (hperm : cs.Perm cs')
    (hstanding : Standing call.args cs) (hstanding' : Standing call.args cs') :
    eventSizeBytes (call.cutTo (call.output.map fun _ => []) (cs.map fun c => (c, []))) =
      eventSizeBytes (call.cutTo (call.output.map fun _ => []) (cs'.map fun c => (c, []))) := by
  have houtput : (call.output.map fun _ => ([] : Text)).isSome = true →
      call.output.isSome = true := by
    rw [Option.isSome_map]
    exact fun h => h
  have hsum : ∀ cs : List Candidate, Standing call.args cs →
      Json.size Json.spaced (replaceAll call.args (cs.map fun c => (c, []))) +
          (cs.map fun c => textSize c.text).sum =
        Json.size Json.spaced call.args + (cs.map fun _ => textSize []).sum := by
    intro cs h
    have hreplaced := size_replaceAll (cs.map fun c => (c, ([] : Text))) call.args (by
      rw [List.map_map]
      exact (List.map_id cs).symm ▸ h)
    rw [List.map_map, List.map_map] at hreplaced
    exact hreplaced
  have hfields : ∀ cs : List Candidate,
      ((cs.map fun c => (c, ([] : Text))).map (·.1.path)) = cs.map Candidate.path := by
    intro cs
    rw [List.map_map]
    rfl
  have hroom : room 2 ((cutFields (call.output.map fun _ => [])
      (cs.map fun c => (c, []))).map textSize) =
      room 2 ((cutFields (call.output.map fun _ => [])
        (cs'.map fun c => (c, []))).map textSize) := by
    unfold cutFields
    rw [hfields, hfields]
    exact room_perm (((hperm.map Candidate.path).append_left _).map textSize)
  have hsize := call.size_cutTo (cs.map fun c => (c, [])) houtput
  have hsize' := call.size_cutTo (cs'.map fun c => (c, [])) houtput
  have hargs := hsum cs hstanding
  have hargs' := hsum cs' hstanding'
  have htexts := (hperm.map fun c => textSize c.text).sum_eq
  have hempties := (hperm.map fun _ => textSize []).sum_eq
  omega

/-! ## The result -/

/-- What a cut copy may differ in: the output and strings of the arguments that are no paths,
each of which the marker names, is a shorter prefix of what it was. -/
structure CutDown (output : Option Text) (done : List (Candidate × Text)) : Prop where
  output : ∀ text, output = some text → ∃ old, call.output = some old ∧ text <+: old ∧ text ≠ old
  places : (done.map (·.1.place)).Nodup
  candidates : ∀ d ∈ done, d.1 ∈ argStrings lower call.args (asText "args")
  shorter : Shortened done

/-- All that the copy differs in from the event. -/
structure OnlyCut (output : Option Text) (done : List (Candidate × Text)) : Prop where
  kept : ∀ key, key ≠ asText "args" → key ≠ asText "output" → key ≠ asText "truncated" →
    Dict.get? (call.cutTo output done) key = Dict.get? call.entries key
  outputOrCut : Dict.get? (call.cutTo output done) (asText "output") =
    (output.map Json.str).or (Dict.get? call.entries (asText "output"))
  marked : Dict.get? (call.cutTo output done) (asText "truncated") =
    some (marker (cutFields output done) call.originalBytes)
  args : Dict.get? (call.cutTo output done) (asText "args") = some (replaceAll call.args done)
  nonPath : ∀ d ∈ done, NonPath lower call.args d.1.place
  replaced : ∀ d ∈ done, getAt call.args d.1.place = some (.str d.1.text) ∧
    getAt (replaceAll call.args done) d.1.place = some (.str d.2)
  others : ∀ place value, value.isScalar = true → getAt call.args place = some value →
    place ∉ done.map (·.1.place) → getAt (replaceAll call.args done) place = some value

theorem get?_cutTo (output : Option Text) (done : List (Candidate × Text)) (key : Text) :
    Dict.get? (call.cutTo output done) key =
      if asText "output" = key ∧ output.isSome = true then output.map Json.str
      else if asText "truncated" = key then
        some (marker (cutFields output done) call.originalBytes)
      else if asText "args" = key then some (replaceAll call.args done)
      else Dict.get? call.entries key := by
  unfold cutTo copy Cutting.result cutFields
  cases output with
  | none => simp [Dict.get?_set]
  | some text => simp [Dict.get?_set]

theorem CutDown.onlyCut {output : Option Text} {done : List (Candidate × Text)}
    (h : call.CutDown lower output done) : call.OnlyCut lower output done := by
  have hstanding : Standing call.args (done.map Prod.fst) := by
    refine ⟨by rw [List.map_map]; exact h.places, ?_⟩
    intro c hc
    obtain ⟨d, hd, rfl⟩ := List.mem_map.mp hc
    exact (call.argStrings_standing lower).2 d.1 (h.candidates d hd)
  exact
    { kept := by
        intro key hargs houtput htruncated
        rw [get?_cutTo, if_neg (fun he => houtput he.1.symm), if_neg (Ne.symm htruncated),
          if_neg (Ne.symm hargs)]
      outputOrCut := by
        rw [get?_cutTo, if_neg truncated_ne_output, if_neg args_ne_output]
        cases output with
        | none => simp
        | some text => simp
      marked := by
        rw [get?_cutTo, if_neg (fun he => truncated_ne_output he.1.symm), if_pos rfl]
      args := by
        rw [get?_cutTo, if_neg (fun he => args_ne_output he.1.symm),
          if_neg (Ne.symm args_ne_truncated), if_pos rfl]
      nonPath := fun d hd => (mem_argStrings call.args _ (h.candidates d hd)).2.2
      replaced := fun d hd => ⟨(hstanding.2 d.1 (List.mem_map.mpr ⟨d, hd, rfl⟩)).1,
        getAt_replaced done call.args hstanding d hd⟩
      others := fun _ _ hscalar hget hnot =>
        getAt_replaceAll hscalar done call.args hstanding hget hnot }

/-- The arguments with every string emptied that is no path. -/
def emptiedArgs : Json :=
  replaceAll call.args ((argStrings lower call.args (asText "args")).map fun c => (c, []))

/-- Nothing is left of any string that is no path. -/
theorem getAt_emptiedArgs {place : List Nat} {text : Text}
    (hget : getAt call.args place = some (.str text)) (hfree : NonPath lower call.args place) :
    getAt (call.emptiedArgs lower) place = some (.str []) := by
  have hmap : ((argStrings lower call.args (asText "args")).map fun c => (c, ([] : Text))).map
      Prod.fst = argStrings lower call.args (asText "args") := by
    rw [List.map_map]
    exact List.map_id _
  have hstanding : Standing call.args
      (((argStrings lower call.args (asText "args")).map fun c => (c, ([] : Text))).map
        Prod.fst) := by
    rw [hmap]
    exact call.argStrings_standing lower
  by_cases hne : text = []
  · have hnot : place ∉ ((argStrings lower call.args (asText "args")).map
        fun c => (c, ([] : Text))).map (·.1.place) := by
      intro hmem
      rw [List.map_map] at hmem
      obtain ⟨c, hc, rfl⟩ := List.mem_map.mp hmem
      obtain ⟨hc, hfilled⟩ := (call.argStrings_standing lower).2 c hc
      have hget : getAt call.args c.place = some (.str text) := hget
      rw [hc] at hget
      exact hfilled ((Json.str.inj (Option.some.inj hget)).trans hne)
    rw [hne] at hget
    exact getAt_replaceAll rfl _ call.args hstanding hget hnot
  · obtain ⟨c, hc, rfl, _⟩ := argStrings_complete call.args (asText "args") hget hne hfree
    exact getAt_replaced _ call.args hstanding (c, []) (List.mem_map.mpr ⟨c, hc, rfl⟩)

theorem candidates_initial {rest : List Candidate} {done : List (Candidate × Text)}
    (h : candidates lower call.args = done.map Prod.fst ++ rest) :
    (done.map (·.1.place)).Nodup ∧
      ∀ d ∈ done, d.1 ∈ argStrings lower call.args (asText "args") := by
  obtain ⟨hplaces, _⟩ := call.candidates_standing lower
  rw [h, List.map_append, List.map_map] at hplaces
  refine ⟨(List.nodup_append.mp hplaces).1, ?_⟩
  intro d hd
  refine (candidates_perm lower call.args).mem_iff.mp ?_
  rw [h]
  exact List.mem_append_left _ (List.mem_map.mpr ⟨d, hd, rfl⟩)

/-- A tool call that is too large is cut down to fit, or refused because it does not fit even
with nothing left of what may be cut. -/
theorem truncateToolCall_spec (hlarge : MAX_EVENT_BYTES < call.originalBytes) :
    (∃ output done, truncateToolCall lower call.entries = .ok (call.cutTo output done) ∧
      eventSizeBytes (call.cutTo output done) ≤ MAX_EVENT_BYTES ∧
      call.CutDown lower output done) ∨
    (truncateToolCall lower call.entries = .error .valueError ∧
      MAX_EVENT_BYTES < eventSizeBytes (call.emptied lower)) := by
  have houtput := call.cutOutput_spec hlarge
  have hnot : ¬ eventSizeBytes call.entries ≤ MAX_EVENT_BYTES := Nat.not_le.mpr hlarge
  unfold truncateToolCall
  rw [if_neg hnot, call.hasArgs]
  dsimp only
  rw [show eventSizeBytes call.entries = call.originalBytes from rfl]
  unfold Cutting.finished
  generalize (Cutting.start call.entries call.originalBytes call.args).cutOutput call.entries =
    first at houtput
  by_cases hstill : (MAX_EVENT_BYTES : Int) < first.sizeBytes
  · have hstanding : Standing first.args (candidates lower call.args) := by
      rw [houtput.args]
      exact call.candidates_standing lower
    obtain ⟨done, rest, hsplit, hshorter, hcounted, hkept, hargs, hfields, hend⟩ :=
      shrinkAll_spec (candidates lower call.args) houtput.counted hstill hstanding
    rw [houtput.args] at hargs
    rw [houtput.fields, ← hkept] at hfields
    have hcopy := call.copy_eq _ hargs hfields
    obtain ⟨hplaces, hcandidates⟩ := call.candidates_initial lower hsplit
    rw [if_pos hstill,
      show (first.shrinkAll (candidates lower call.args)).result call.entries
        call.originalBytes = _ from hcopy]
    by_cases hlarge : MAX_EVENT_BYTES < eventSizeBytes
        (call.cutTo (first.shrinkAll (candidates lower call.args)).output done)
    · rw [if_pos hlarge]
      refine .inr ⟨rfl, ?_⟩
      rw [← hcopy, ← Int.ofNat_lt, ← hcounted.size] at hlarge
      obtain ⟨hrest, hnothing⟩ := hend hlarge
      -- every candidate was emptied, in the order of the loop
      have hdone : done = (candidates lower call.args).map fun c => (c, []) := by
        rw [hsplit, hrest, List.append_nil, List.map_map]
        refine ((List.map_congr_left ?_).trans (List.map_id' done)).symm
        intro d hd
        exact Prod.ext rfl (hnothing d hd).symm
      rw [hcounted.size, hcopy, hkept, houtput.emptied hstill, hdone,
        call.size_emptied (candidates_perm lower call.args) (call.candidates_standing lower)
          (call.argStrings_standing lower)] at hlarge
      exact Int.ofNat_lt.mp hlarge
    · rw [if_neg hlarge]
      exact .inl ⟨_, done, rfl, Nat.not_lt.mp hlarge,
        { output := fun text h => houtput.shorter text (hkept ▸ h)
          places := hplaces
          candidates := hcandidates
          shorter := hshorter }⟩
  · have hcopy := call.copy_eq [] houtput.args
      (houtput.fields.trans (List.append_nil _).symm)
    have hfits : ¬ MAX_EVENT_BYTES < eventSizeBytes (call.cutTo first.output []) := by
      rw [← hcopy, ← Int.ofNat_lt, ← houtput.counted.size]
      exact hstill
    rw [if_neg hstill,
      show first.result call.entries call.originalBytes = _ from hcopy, if_neg hfits]
    exact .inl ⟨_, [], rfl, Nat.not_lt.mp hfits,
      { output := houtput.shorter
        places := List.nodup_nil
        candidates := fun d hd => absurd hd List.not_mem_nil
        shorter := fun d hd => absurd hd List.not_mem_nil }⟩

end ToolCall

end BackgroundAgents.Sandbox.EventSize
