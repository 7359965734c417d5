import Mathlib.Data.List.Forall2
import Mathlib.Data.List.Nodup
import SmartDesk.Assistant.Service

/-!
# Items that a provider can replay

A turn is a sequence of responses, each followed by the outputs of its function calls.

* `turnItems` — the items of a turn, response by response.
* `Answers` — the outputs of a response: one for each of its calls, in their order.
* `Paired` — a request in which every call of the turn has its one output, before the items
  of a later response.
* `paired_of_answers` — **answers in order make a request that is paired**, if no call ID is
  used twice.
-/

namespace SmartDesk.Assistant

variable {J : Type}

/-! ## Calls and outputs -/

def HistoryItem.isFunctionCall (item : HistoryItem J) : Bool := item.type == some "function_call"

/-- The item is a call with this ID. -/
def HistoryItem.isCallOf (id : String) (item : HistoryItem J) : Bool :=
  item.isFunctionCall && item.callId == some id

/-- The item is an output for this ID. -/
def HistoryItem.isOutputOf (id : String) (item : HistoryItem J) : Bool :=
  item.type == some "function_call_output" && item.callId == some id

/-- The ID of a call or an output. -/
def HistoryItem.usedId (item : HistoryItem J) : Option String :=
  if item.type = some "function_call" ∨ item.type = some "function_call_output" then item.callId
  else none

/-- The IDs of the calls and outputs, in their order. -/
def callIds (items : List (HistoryItem J)) : List String := items.filterMap HistoryItem.usedId

/-- An ID is used by its calls and by its outputs. -/
theorem count_callIds (id : String) (items : List (HistoryItem J)) :
    (callIds items).count id =
      items.countP (HistoryItem.isCallOf id) + items.countP (HistoryItem.isOutputOf id) := by
  induction items with
  | nil => rfl
  | cons item items ih =>
    rw [List.countP_cons, List.countP_cons]
    have hitem : (callIds (item :: items)).count id = (callIds items).count id +
        ((if HistoryItem.isCallOf id item then 1 else 0) +
          if HistoryItem.isOutputOf id item then 1 else 0) := by
      unfold callIds HistoryItem.isCallOf HistoryItem.isOutputOf HistoryItem.isFunctionCall
      rw [List.filterMap_cons]
      unfold HistoryItem.usedId
      by_cases hcall : item.type = some "function_call"
      · cases hid : item.callId with
        | none => simp [hcall]
        | some other => by_cases hother : other = id <;> simp [hcall, hother]
      · by_cases houtput : item.type = some "function_call_output"
        · cases hid : item.callId with
          | none => simp [houtput]
          | some other => by_cases hother : other = id <;> simp [houtput, hother]
        · simp [hcall, houtput]
    omega

/-- The items of a turn: each response, and the outputs of its calls. -/
def turnItems (responses outputs : List (List (HistoryItem J))) : List (HistoryItem J) :=
  (List.zipWith (· ++ ·) responses outputs).flatten

/-- One output for each call of a response, in their order. -/
structure Answers (items outputs : List (HistoryItem J)) : Prop where
  ids : outputs.map (·.callId) = (items.filter HistoryItem.isFunctionCall).map (·.callId)
  types : ∀ item ∈ outputs, item.type = some "function_call_output"

/-- The outputs for an ID are as many as the calls with it. -/
theorem Answers.countP {items outputs : List (HistoryItem J)} (h : Answers items outputs)
    (id : String) :
    outputs.countP (HistoryItem.isOutputOf id) = items.countP (HistoryItem.isCallOf id) := by
  have houtputs : outputs.countP (HistoryItem.isOutputOf id) =
      (outputs.map (·.callId)).count (some id) := by
    rw [List.count, List.countP_map]
    refine List.countP_congr fun item hitem => ?_
    simp [HistoryItem.isOutputOf, h.types item hitem]
  rw [houtputs, h.ids, List.count, List.countP_map, List.countP_filter]
  refine List.countP_congr fun item _ => ?_
  simp [HistoryItem.isCallOf, and_comm]

/-- In the items of a turn the outputs for an ID are as many as it is used by the
responses. -/
theorem countP_turnItems {responses outputs : List (List (HistoryItem J))}
    (h : List.Forall₂ Answers responses outputs) (id : String) :
    (turnItems responses outputs).countP (HistoryItem.isOutputOf id) =
      (callIds responses.flatten).count id := by
  induction h with
  | nil => rfl
  | @cons items outs responses outputs hanswers _ ih =>
    have hrest : ∀ a b : List (HistoryItem J), (callIds (a ++ b)).count id =
        (callIds a).count id + (callIds b).count id := by
      intro a b
      rw [callIds, List.filterMap_append, List.count_append]
      rfl
    rw [turnItems, List.zipWith_cons_cons, List.flatten_cons, List.countP_append,
      List.countP_append, hanswers.countP, ← turnItems, ih, List.flatten_cons, hrest,
      count_callIds id items]
    omega

/-! ## Requests -/

/-- Every call of the responses has its one output in the request, before the items of a
later response. -/
def Paired (responses : List (List (HistoryItem J))) (request : Request J) : Prop :=
  ∃ (old : List (HistoryItem J)) (text : PyText.PyStr) (outputs : List (List (HistoryItem J))),
    request = .step (old ++ userItem text :: turnItems responses outputs) ∧
    outputs.length = responses.length ∧
    ∀ (i : ℕ) (items : List (HistoryItem J)) (item : HistoryItem J), responses[i]? = some items →
      item ∈ items → item.isFunctionCall = true →
      ∃ (id : String) (outs : List (HistoryItem J)), item.callId = some id ∧
        outputs[i]? = some outs ∧ outs.countP (HistoryItem.isOutputOf id) = 1 ∧
        (turnItems responses outputs).countP (HistoryItem.isOutputOf id) = 1

/-- A step with the calls that its items say. -/
def BuiltFromItems (step : OpenAiResponseStep J) : Prop :=
  (step.outputItems.filter HistoryItem.isFunctionCall).map
      (fun item => (item.callId, item.name, item.arguments)) =
    step.toolCalls.map fun call => (some call.callId, some call.name, some call.argumentsJson)

/-- Every call among the items has an ID. -/
def CallsHaveIds (items : List (HistoryItem J)) : Prop :=
  ∀ item ∈ items, item.isFunctionCall = true → ∃ id, item.callId = some id

theorem BuiltFromItems.ids {step : OpenAiResponseStep J} (h : BuiltFromItems step) :
    (step.outputItems.filter HistoryItem.isFunctionCall).map (·.callId) =
      step.toolCalls.map fun call => some call.callId := by
  have hids := congrArg (List.map Prod.fst) h
  simpa [Function.comp_def] using hids

theorem BuiltFromItems.callsHaveIds {step : OpenAiResponseStep J} (h : BuiltFromItems step) :
    CallsHaveIds step.outputItems := by
  intro item hitem hcall
  have hmem : item.callId ∈ (step.outputItems.filter HistoryItem.isFunctionCall).map (·.callId) :=
    List.mem_map.mpr ⟨item, List.mem_filter.mpr ⟨hitem, hcall⟩, rfl⟩
  rw [h.ids] at hmem
  obtain ⟨call, _, hcallId⟩ := List.mem_map.mp hmem
  exact ⟨call.callId, hcallId.symm⟩

/-- **Answers in order make a request that is paired.** -/
theorem paired_of_answers {old : List (HistoryItem J)} {text : PyText.PyStr}
    {responses outputs : List (List (HistoryItem J))}
    (h : List.Forall₂ Answers responses outputs) (hids : CallsHaveIds responses.flatten)
    (hdistinct : (callIds responses.flatten).Nodup) :
    Paired responses (.step (old ++ userItem text :: turnItems responses outputs)) := by
  refine ⟨old, text, outputs, rfl, h.length_eq.symm, fun i items item hitems hitem hcall => ?_⟩
  have hmem : items ∈ responses := List.mem_of_getElem? hitems
  obtain ⟨id, hid⟩ := hids item (List.mem_flatten.mpr ⟨items, hmem, hitem⟩) hcall
  obtain ⟨outs, houts⟩ : ∃ outs, outputs[i]? = some outs := by
    have hlt := (List.getElem?_eq_some_iff.mp hitems).1
    exact ⟨_, List.getElem?_eq_getElem (by rw [← h.length_eq]; exact hlt)⟩
  have hanswers : Answers items outs := by
    refine List.forall₂_zip h ?_
    refine List.mem_of_getElem? (i := i) ?_
    rw [List.getElem?_zip_eq_some]
    exact ⟨hitems, houts⟩
  have htotal := countP_turnItems h id
  have hused : id ∈ callIds responses.flatten := by
    refine List.mem_filterMap.mpr ⟨item, List.mem_flatten.mpr ⟨items, hmem, hitem⟩, ?_⟩
    rw [HistoryItem.usedId, if_pos (.inl (eq_of_beq hcall)), hid]
  rw [List.count_eq_one_of_mem hdistinct hused] at htotal
  refine ⟨id, outs, hid, houts, ?_, htotal⟩
  -- The call has an output in its own block, and there is only one in all of them.
  have hone : 1 ≤ outs.countP (HistoryItem.isOutputOf id) := by
    rw [hanswers.countP, Nat.one_le_iff_ne_zero, ← Nat.pos_iff_ne_zero, List.countP_pos_iff]
    exact ⟨item, hitem, by simp [HistoryItem.isCallOf, hcall, hid]⟩
  have hle : outs.countP (HistoryItem.isOutputOf id) ≤ 1 := by
    rw [← htotal]
    have hblock : items ++ outs ∈ List.zipWith (· ++ ·) responses outputs := by
      refine List.mem_of_getElem? (i := i) ?_
      rw [List.getElem?_zipWith, hitems, houts]
    refine Nat.le_trans ?_ ((List.sublist_flatten_of_mem hblock).countP_le)
    rw [List.countP_append]
    exact Nat.le_add_left _ _
  omega

end SmartDesk.Assistant
