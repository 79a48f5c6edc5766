import Rampipe.Lib.Codec
import Rampipe.Model.Connection

/-!
# Rampipe — the messages as JSON

The `Serialize` and `Deserialize` derives of `protocol.rs`, and those of the sidecar in
`llama.rs`: each type with the members or variants it declares, in their order, and with
its `rename`, `default` and `skip_serializing_if` attributes. A type of the wire that
mirrors one of `conversation.rs` field for field is that type, so the conversions
between the two are the identity.

A `Json` here is a document as it is written, whose members stand in any order and may
repeat. Its text is serde_json's. So is the text of an `f32` (`Floats`); the other
numbers are decimal. That serde also reads a struct from the array of its fields, which
no side writes, is left out.
-/

namespace Rampipe

open Doc

/-! ## Primitive values -/

/-- How serde_json writes and reads an `f32`. What was once read is written so that it
is read again, and so are the two defaults. -/
structure Floats where
  toLiteral : ℚ → Text
  ofLiteral : Text → Option ℚ
  reads : ∀ {literal x}, ofLiteral literal = some x → ofLiteral (toLiteral x) = some x
  reads_zero : ofLiteral (toLiteral 0) = some 0
  reads_one : ofLiteral (toLiteral 1) = some 1

namespace Wire

def isNull : Json → Bool
  | .null => true
  | _ => false

def text : Codec Json Text where
  encode value := .string value
  decode
    | .string value => some value
    | _ => none
  Valid _ := True
  decode_encode _ := rfl
  valid_of_decode _ := trivial

def bool : Codec Json Bool where
  encode value := .bool value
  decode
    | .bool value => some value
    | _ => none
  Valid _ := True
  decode_encode _ := rfl
  valid_of_decode _ := trivial

def ofDigits (literal : Text) : Option Nat :=
  if literal ≠ [] ∧ literal.all Char.isDigit then some (Nat.ofDigitChars 10 literal 0) else none

/-- Decimal digits are read back. -/
theorem ofDigits_toDigits (n : Nat) : ofDigits (Nat.toDigits 10 n) = some n := by
  have hDigits : (Nat.toDigits 10 n).all Char.isDigit = true :=
    List.all_eq_true.mpr fun _ hMem =>
      Nat.isDigit_of_mem_toDigits (by decide) (by decide) hMem
  rw [ofDigits, if_pos ⟨Nat.toDigits_ne_nil, hDigits⟩, Nat.ofDigitChars_ten_toDigits]

/-- An unsigned integer below `bound`. -/
def unsigned (bound : Nat) : Codec Json Nat where
  encode n := .number (Nat.toDigits 10 n)
  decode
    | .number literal => (ofDigits literal).filter (· < bound)
    | _ => none
  Valid n := n < bound
  decode_encode := by
    intro n h
    show (ofDigits (Nat.toDigits 10 n)).filter (· < bound) = some n
    rw [ofDigits_toDigits, Option.filter_some, if_pos (decide_eq_true h)]
  valid_of_decode := by
    intro json n h
    split at h
    · exact of_decide_eq_true (Option.filter_eq_some_iff.mp h).2
    · cases h

def u32 : Codec Json Nat := unsigned 4294967296

def u64 : Codec Json Nat := unsigned 18446744073709551616

/-- On a 64-bit target. -/
def usize : Codec Json Nat := unsigned 18446744073709551616

def ofInteger : Text → Option Int
  -- a negative zero is a float
  | '-' :: digits => ((ofDigits digits).filter (0 < ·)).map fun n => -Int.ofNat n
  | digits => (ofDigits digits).map Int.ofNat

def toInteger (n : Int) : Text :=
  if n < 0 then '-' :: Nat.toDigits 10 n.natAbs else Nat.toDigits 10 n.natAbs

/-- So is an integer. -/
theorem ofInteger_toInteger (n : Int) : ofInteger (toInteger n) = some n := by
  rw [toInteger]
  split
  · rename_i hNeg
    have hPos : 0 < n.natAbs := by omega
    rw [ofInteger, ofDigits_toDigits, Option.filter_some, if_pos (decide_eq_true hPos),
      Option.map_some]
    congr 1
    show -((n.natAbs : Nat) : Int) = n
    omega
  · rename_i hNonneg
    -- digits do not begin with a minus
    have hDigits : ofInteger (Nat.toDigits 10 n.natAbs) =
        (ofDigits (Nat.toDigits 10 n.natAbs)).map Int.ofNat := by
      unfold ofInteger
      split
      · rename_i digits hMinus
        have hMem : '-' ∈ Nat.toDigits 10 n.natAbs := hMinus ▸ List.mem_cons_self
        exact absurd (Nat.isDigit_of_mem_toDigits (by decide) (by decide) hMem) (by decide)
      · rfl
    rw [hDigits, ofDigits_toDigits, Option.map_some]
    congr 1
    show ((n.natAbs : Nat) : Int) = n
    omega

def i32 : Codec Json Int where
  encode n := .number (toInteger n)
  decode
    | .number literal => (ofInteger literal).filter fun n => -2147483648 ≤ n ∧ n ≤ 2147483647
    | _ => none
  Valid n := -2147483648 ≤ n ∧ n ≤ 2147483647
  decode_encode := by
    intro n h
    show (ofInteger (toInteger n)).filter (fun n => -2147483648 ≤ n ∧ n ≤ 2147483647) = some n
    rw [ofInteger_toInteger, Option.filter_some, if_pos (decide_eq_true h)]
  valid_of_decode := by
    intro json n h
    split at h
    · exact of_decide_eq_true (Option.filter_eq_some_iff.mp h).2
    · cases h

def f32 (floats : Floats) : Codec Json ℚ where
  encode x := .number (floats.toLiteral x)
  decode
    | .number literal => floats.ofLiteral literal
    | _ => none
  Valid x := floats.ofLiteral (floats.toLiteral x) = some x
  decode_encode h := h
  valid_of_decode := by
    intro json x h
    split at h
    · exact floats.reads h
    · cases h

/-! ## Compound values -/

/-- `Vec<T>`. -/
def vec {α : Type} (c : Codec Json α) : Codec Json (List α) :=
  c.list .array
    (fun
      | .array items => some items
      | _ => none)
    fun _ => rfl

/-- `Option<T>`, with `null` for `None`. -/
def option {α : Type} (c : Codec Json α) (hEncode : ∀ a, isNull (c.encode a) = false) :
    Codec Json (Option α) :=
  c.option .null isNull rfl hEncode

/-- A struct. -/
def object {α : Type} (r : Record Text Json α) : Codec Json α :=
  r.codec .object
    (fun
      | .object members => some members
      | _ => none)
    fun _ => rfl

/-- An enum, externally tagged: a variant without content is its name. -/
def enum {α : Type} (t : Tagged Text Json α) : Codec Json α :=
  t.codec
    (fun
      | (tag, none) => .string tag
      | (tag, some content) => .object [(tag, content)])
    (fun
      | .string tag => some (tag, none)
      | .object [(tag, content)] => some (tag, some content)
      | _ => none)
    (by rintro ⟨tag, _ | content⟩ <;> rfl)

def unitVariant (name : String) : Tagged Text Json Unit := .unit name.toList isNull

/-- A struct variant. -/
def structVariant {α : Type} (name : String) (r : Record Text Json α) : Tagged Text Json α :=
  .newtype name.toList (object r)

/-- `Option<T>` with `#[serde(default)]`. -/
def optional {α : Type} (key : String) (c : Codec Json α)
    (hEncode : ∀ a, isNull (c.encode a) = false) : Record Text Json (Option α) :=
  .defaulted key.toList (option c hEncode) none (by rintro a ⟨⟩)

/-- The same with `skip_serializing_if = "Option::is_none"`. -/
def unlessNone {α : Type} (key : String) (c : Codec Json α)
    (hEncode : ∀ a, isNull (c.encode a) = false) : Record Text Json (Option α) :=
  .skipping key.toList (option c hEncode) none Option.isNone
    (fun _ h => (Option.isNone_iff_eq_none.mp h).symm) (by rintro a ⟨⟩)

/-- `Vec<T>` with `#[serde(default, skip_serializing_if = "Vec::is_empty")]`. -/
def unlessEmpty {α : Type} (key : String) (c : Codec Json α) : Record Text Json (List α) :=
  .skipping key.toList (vec c) [] List.isEmpty (fun _ h => (List.isEmpty_iff.mp h).symm)
    (by rintro a ⟨⟩)

def field {α : Type} (key : String) (c : Codec Json α) : Record Text Json α :=
  .required key.toList c

/-- No enum is written as `null`. -/
theorem isNull_enum {α : Type} (t : Tagged Text Json α) (a : α) :
    isNull ((enum t).encode a) = false := by
  show isNull (match t.encode a with
    | (tag, none) => .string tag
    | (tag, some content) => .object [(tag, content)]) = false
  rcases t.encode a with ⟨tag, _ | content⟩ <;> rfl

/-! ## `serde_json::Value` -/

mutual

/-- A document read as a `Value`, whose objects are ordered maps. -/
def toValue : Json → Json
  | .array items => .array (toValues items)
  | .object members => .object (toMap members [])
  | json => json

def toValues : List Json → List Json
  | [] => []
  | item :: items => toValue item :: toValues items

/-- Inserts one member after another. -/
def toMap : List (Text × Json) → Map Json → Map Json
  | [], map => map
  | (key, json) :: members, map => toMap members (map.insert key (toValue json))

end

mutual

/-- A document with its members in order is its own value. -/
theorem toValue_of_ordered : ∀ {json : Json}, json.Ordered → toValue json = json
  | .null, _ => rfl
  | .bool _, _ => rfl
  | .number _, _ => rfl
  | .string _, _ => rfl
  | .array items, h => by
    cases h with
    | array hItems => rw [toValue, toValues_of_ordered hItems]
  | .object members, h => by
    cases h with
    | object hOrdered hMembers =>
      rw [toValue, toMap_of_ordered [] hMembers hOrdered, List.nil_append]

/-- So is each of several. -/
theorem toValues_of_ordered : ∀ {items : List Json}, (∀ item ∈ items, item.Ordered) →
    toValues items = items
  | [], _ => rfl
  | item :: items, h => by
    rw [toValues, toValue_of_ordered (h item List.mem_cons_self),
      toValues_of_ordered fun other hOther => h other (List.mem_cons_of_mem item hOther)]

/-- Members in order are put behind those that are there. -/
theorem toMap_of_ordered : ∀ {members : List (Text × Json)} (map : Map Json),
    (∀ member ∈ members, member.2.Ordered) → (map ++ members : Map Json).Ordered →
    toMap members map = map ++ members
  | [], map, _, _ => by rw [toMap, List.append_nil]
  | (key, json) :: members, map, h, hOrdered => by
    -- each member comes behind all that are in the map already
    have hLast : ∀ entry ∈ map, entry.1 < key := fun entry hEntry =>
      (List.pairwise_append.mp hOrdered).2.2 entry hEntry (key, json) List.mem_cons_self
    have hRest : (map ++ [(key, json)] ++ members : Map Json).Ordered := by
      rwa [List.append_assoc]
    rw [toMap, toValue_of_ordered (h (key, json) List.mem_cons_self), Map.insert_of_lt hLast,
      toMap_of_ordered _ (fun member hMember => h member (List.mem_cons_of_mem _ hMember)) hRest,
      List.append_assoc]
    rfl

end

/-- Inserting keeps the keys in order. -/
theorem ordered_insert {V : Type} {key : Text} {value : V} {map : Map V} (h : map.Ordered) :
    (map.insert key value).Ordered := by
  induction map with
  | nil => exact List.pairwise_singleton _ _
  | cons head rest ih =>
    obtain ⟨k, v⟩ := head
    obtain ⟨hHead, hRest⟩ := List.pairwise_cons.mp h
    rw [Map.insert]
    split_ifs with hLt hEq
    -- before the head, in its place, or further back
    · refine List.pairwise_cons.mpr ⟨fun entry hEntry => ?_, h⟩
      rcases List.mem_cons.mp hEntry with rfl | hEntry
      · exact hLt
      · exact List.lt_trans hLt (hHead entry hEntry)
    · subst hEq
      exact List.pairwise_cons.mpr ⟨hHead, hRest⟩
    · refine List.pairwise_cons.mpr ⟨fun entry hEntry => ?_, ih hRest⟩
      rcases Map.mem_insert hEntry with rfl | hEntry
      · exact (List.le_iff_lt_or_eq.mp (List.not_lt.mp hLt)).resolve_right (Ne.symm hEq)
      · exact hHead entry hEntry

mutual

/-- A value has its members in order. -/
theorem ordered_toValue : ∀ json : Json, (toValue json).Ordered
  | .null => .null
  | .bool value => .bool value
  | .number literal => .number literal
  | .string value => .string value
  | .array items => by
    rw [toValue]
    exact .array (ordered_toValues items)
  | .object members => by
    rw [toValue]
    have hMap := ordered_toMap members [] List.Pairwise.nil (by simp)
    exact .object hMap.1 hMap.2

/-- So has each of several. -/
theorem ordered_toValues : ∀ items : List Json, ∀ item ∈ toValues items, item.Ordered
  | [] => by simp [toValues]
  | item :: items => by
    intro other hOther
    rw [toValues] at hOther
    rcases List.mem_cons.mp hOther with rfl | hOther
    · exact ordered_toValue item
    · exact ordered_toValues items other hOther

/-- And so has a map that members are put into. -/
theorem ordered_toMap : ∀ (members : List (Text × Json)) (map : Map Json), map.Ordered →
    (∀ entry ∈ map, entry.2.Ordered) →
    (toMap members map).Ordered ∧ ∀ entry ∈ toMap members map, entry.2.Ordered
  | [], _, hKeys, hValues => by
    rw [toMap]
    exact ⟨hKeys, hValues⟩
  | (key, json) :: members, map, hKeys, hValues => by
    rw [toMap]
    refine ordered_toMap members _ (ordered_insert hKeys) fun entry hEntry => ?_
    rcases Map.mem_insert hEntry with rfl | hEntry
    · exact ordered_toValue json
    · exact hValues entry hEntry

end

def value : Codec Json Json where
  encode json := json
  decode json := some (toValue json)
  Valid := Json.Ordered
  decode_encode h := congrArg some (toValue_of_ordered h)
  valid_of_decode := by
    intro json value h
    cases h
    exact ordered_toValue json

/-! ## Requests -/

section Requests

variable (floats : Floats)

def penalties : Record Text Json Penalties :=
  field "last_n" i32
    |>.both (field "repeat" (f32 floats)) rfl
    |>.both (field "freq" (f32 floats)) rfl
    |>.both (field "present" (f32 floats)) rfl
    |>.iso (fun (((lastN, repeat_), freq), present) => { lastN, repeat_, freq, present })
      (fun p => (((p.lastN, p.repeat_), p.freq), p.present)) (fun _ => rfl) fun _ => rfl

def temperature : Record Text Json (((((ℚ × Int) × ℚ) × ℚ) × Nat) × Penalties) :=
  field "temperature" (f32 floats)
    |>.both (field "top_k" i32) rfl
    |>.both (.defaulted "top_p".toList (f32 floats) 1 floats.reads_one) rfl
    |>.both (.defaulted "min_p".toList (f32 floats) 0 floats.reads_zero) rfl
    |>.both (field "seed" u32) rfl
    |>.both (field "penalties" (object (penalties floats))) rfl

/-- `WireSampling`. -/
def sampling : Codec Json Sampling :=
  enum <|
    structVariant "Greedy" (field "penalties" (object (penalties floats)))
      |>.or (structVariant "Temperature" (temperature floats)) rfl
      |>.iso
        (fun
          | .inl penalties => .greedy penalties
          | .inr (((((temperature, topK), topP), minP), seed), penalties) =>
            .temperature temperature topK topP minP seed penalties)
        (fun
          | .greedy penalties => .inl penalties
          | .temperature temperature topK topP minP seed penalties =>
            .inr (((((temperature, topK), topP), minP), seed), penalties))
        (by rintro (_ | _) <;> rfl) (by rintro (_ | _) <;> rfl)

def grammarCompletion : Codec Json GrammarCompletion :=
  enum <|
    Tagged.newtype "ExactMatch".toList (vec text)
      |>.or (structVariant "ValidJson" (field "prefill" text)) rfl
      |>.iso
        (fun
          | .inl options => .exactMatch options
          | .inr pre => .validJson pre)
        (fun
          | .exactMatch options => .inl options
          | .validJson pre => .inr pre)
        (by rintro (_ | _) <;> rfl) (by rintro (_ | _) <;> rfl)

def toolFunction : Record Text Json ToolFunction :=
  field "name" text
    |>.both (field "description" text) rfl
    |>.both (field "parameters" value) rfl
    |>.iso (fun ((name, description), parameters) => { name, description, parameters })
      (fun f => ((f.name, f.description), f.parameters)) (fun _ => rfl) fun _ => rfl

def toolSpec : Record Text Json ToolSpec :=
  field "type" text
    |>.both (field "function" (object toolFunction)) rfl
    |>.iso (fun (kind, function) => { kind, function }) (fun t => (t.kind, t.function))
      (fun _ => rfl) fun _ => rfl

def toolFormat : Codec Json ToolFormat :=
  enum <|
    structVariant "Json"
        (field "call_open" text
          |>.both (field "call_close" text) rfl
          |>.both (field "name_key" text) rfl
          |>.both (field "arguments_key" text) rfl)
      |>.or (structVariant "Delimited"
        (field "call_open" text
          |>.both (field "name_close" text) rfl
          |>.both (field "arg_open" text) rfl
          |>.both (field "arg_name_close" text) rfl
          |>.both (field "arg_close" text) rfl
          |>.both (field "call_close" text) rfl)) rfl
      |>.or (structVariant "Separated"
        (field "call_open" text
          |>.both (field "name_close" text) rfl
          |>.both (field "arg_name_close" text) rfl
          |>.both (field "value_open" text) rfl
          |>.both (field "arg_close" text) rfl
          |>.both (field "arg_sep" text) rfl
          |>.both (field "call_close" text) rfl)) rfl
      |>.iso
        (fun
          | .inl (.inl (((callOpen, callClose), nameKey), argumentsKey)) =>
            .json callOpen callClose nameKey argumentsKey
          | .inl (.inr (((((callOpen, nameClose), argOpen), argNameClose), argClose), callClose)) =>
            .delimited callOpen nameClose argOpen argNameClose argClose callClose
          | .inr ((((((callOpen, nameClose), argNameClose), valueOpen), argClose), argSep),
              callClose) =>
            .separated callOpen nameClose argNameClose valueOpen argClose argSep callClose)
        (fun
          | .json callOpen callClose nameKey argumentsKey =>
            .inl (.inl (((callOpen, callClose), nameKey), argumentsKey))
          | .delimited callOpen nameClose argOpen argNameClose argClose callClose =>
            .inl (.inr (((((callOpen, nameClose), argOpen), argNameClose), argClose), callClose))
          | .separated callOpen nameClose argNameClose valueOpen argClose argSep callClose =>
            .inr ((((((callOpen, nameClose), argNameClose), valueOpen), argClose), argSep),
              callClose))
        (by rintro (_ | _ | _) <;> rfl) (by rintro ((_ | _) | _) <;> rfl)

def generateRequest : Record Text Json GenerateRequest :=
  field "model_path" text
    |>.both (field "prompt" text) rfl
    |>.both (optional "max_new_tokens" i32 fun _ => rfl) rfl
    |>.both (optional "sampling" (sampling floats) (isNull_enum _)) rfl
    |>.both (optional "grammar" text fun _ => rfl) rfl
    |>.both (optional "assistant_prefill" text fun _ => rfl) rfl
    |>.both (optional "grammar_completion" grammarCompletion (isNull_enum _)) rfl
    |>.iso
      (fun ((((((modelPath, prompt), maxNewTokens), sampling), grammar), assistantPrefill),
          grammarCompletion) =>
        { modelPath, prompt, maxNewTokens, sampling, grammar, assistantPrefill, grammarCompletion })
      (fun r => ((((((r.modelPath, r.prompt), r.maxNewTokens), r.sampling), r.grammar),
        r.assistantPrefill), r.grammarCompletion))
      (fun _ => rfl) fun _ => rfl

/-- `WirePooling`. -/
def pooling : Codec Json Pooling :=
  enum <|
    unitVariant "Model"
      |>.or (unitVariant "Mean") rfl
      |>.or (unitVariant "Cls") rfl
      |>.or (unitVariant "Last") rfl
      |>.iso
        (fun
          | .inl (.inl (.inl ())) => .model
          | .inl (.inl (.inr ())) => .mean
          | .inl (.inr ()) => .cls
          | .inr () => .last)
        (fun
          | .model => .inl (.inl (.inl ()))
          | .mean => .inl (.inl (.inr ()))
          | .cls => .inl (.inr ())
          | .last => .inr ())
        (by rintro (_ | _ | _ | _) <;> rfl) (by rintro (((_ | _) | _) | _) <;> rfl)

def embedRequest : Record Text Json EmbedRequest :=
  field "model_path" text
    |>.both (field "texts" (vec text)) rfl
    |>.both (.defaulted "pooling".toList pooling .model trivial) rfl
    |>.both (.defaulted "normalize".toList bool true trivial) rfl
    |>.iso (fun (((modelPath, texts), pooling), normalize) =>
        { modelPath, texts, pooling, normalize })
      (fun r => (((r.modelPath, r.texts), r.pooling), r.normalize)) (fun _ => rfl) fun _ => rfl

def snapshotRef : Record Text Json SnapshotRef :=
  field "state_path" text
    |>.both (field "meta_path" text) rfl
    |>.iso (fun (statePath, metaPath) => { statePath, metaPath })
      (fun r => (r.statePath, r.metaPath)) (fun _ => rfl) fun _ => rfl

/-- `WireOverflowPolicy`, and `OverflowPolicy` in the sidecar. -/
def overflowPolicy : Codec Json OverflowPolicy :=
  enum <|
    unitVariant "Fail"
      |>.or (unitVariant "DropOldestTurns") rfl
      |>.iso
        (fun
          | .inl () => .fail
          | .inr () => .dropOldestTurns)
        (fun
          | .fail => .inl ()
          | .dropOldestTurns => .inr ())
        (by rintro (_ | _) <;> rfl) (by rintro (_ | _) <;> rfl)

def openConversationRequest : Record Text Json OpenConversationRequest :=
  field "model_path" text
    |>.both (field "n_ctx" u32) rfl
    |>.both (field "overflow" overflowPolicy) rfl
    |>.both (unlessNone "restore_from" (object snapshotRef) fun _ => rfl) rfl
    |>.both (unlessNone "system" text fun _ => rfl) rfl
    |>.both (unlessEmpty "tools" (object toolSpec)) rfl
    |>.both (unlessNone "tool_format" toolFormat (isNull_enum _)) rfl
    |>.iso
      (fun ((((((modelPath, nCtx), overflow), restoreFrom), system), tools), toolFormat) =>
        { modelPath, nCtx, overflow, restoreFrom, system, tools, toolFormat })
      (fun r => ((((((r.modelPath, r.nCtx), r.overflow), r.restoreFrom), r.system), r.tools),
        r.toolFormat))
      (fun _ => rfl) fun _ => rfl

def clientMessage : Codec Json ClientMessage :=
  enum <|
    Tagged.newtype "Generate".toList (object (generateRequest floats))
      |>.or (.newtype "OpenConversation".toList (object openConversationRequest)) rfl
      |>.or (unitVariant "Status") rfl
      |>.or (.newtype "Embed".toList (object embedRequest)) rfl
      |>.iso
        (fun
          | .inl (.inl (.inl request)) => .generate request
          | .inl (.inl (.inr request)) => .openConversation request
          | .inl (.inr ()) => .status
          | .inr request => .embed request)
        (fun
          | .generate request => .inl (.inl (.inl request))
          | .openConversation request => .inl (.inl (.inr request))
          | .status => .inl (.inr ())
          | .embed request => .inr request)
        (by rintro (_ | _ | _ | _) <;> rfl) (by rintro (((_ | _) | _) | _) <;> rfl)

def conversationTurnRequest : Record Text Json ConversationTurnRequest :=
  unlessNone "tool_results" (vec text) (fun _ => rfl)
    |>.both (field "message" text) rfl
    |>.both (optional "max_new_tokens" i32 fun _ => rfl) rfl
    |>.both (optional "sampling" (sampling floats) (isNull_enum _)) rfl
    |>.both (optional "grammar" text fun _ => rfl) rfl
    |>.both (optional "assistant_prefill" text fun _ => rfl) rfl
    |>.both (optional "grammar_completion" grammarCompletion (isNull_enum _)) rfl
    |>.iso
      (fun ((((((toolResults, message), maxNewTokens), sampling), grammar), assistantPrefill),
          grammarCompletion) =>
        { toolResults, message, maxNewTokens, sampling, grammar, assistantPrefill
          grammarCompletion })
      (fun r => ((((((r.toolResults, r.message), r.maxNewTokens), r.sampling), r.grammar),
        r.assistantPrefill), r.grammarCompletion))
      (fun _ => rfl) fun _ => rfl

def conversationRequest : Codec Json ConversationRequest :=
  enum <|
    Tagged.newtype "Turn".toList (object (conversationTurnRequest floats))
      |>.or (.newtype "Snapshot".toList (object snapshotRef)) rfl
      |>.iso
        (fun
          | .inl turn => .turn turn
          | .inr snapshot => .snapshot snapshot)
        (fun
          | .turn turn => .inl turn
          | .snapshot snapshot => .inr snapshot)
        (by rintro (_ | _) <;> rfl) (by rintro (_ | _) <;> rfl)

end Requests

end Wire

/-! ## Replies with their times -/

/-- What a client gets of a turn. -/
structure GenerateOutcome extends GenerationResult where
  timeToFirstTokenMs : Nat

/-- A `GenerateResponse` as it is sent. -/
inductive TimedGenerateResponse
  | ok (text : Text) (tokensGenerated timeToFirstTokenMs : Nat) (formattedPrompt : Text)
  | err (message : Text)

def GenerateResponse.timed (ms : Nat) : GenerateResponse → TimedGenerateResponse
  | .ok text tokensGenerated formattedPrompt => .ok text tokensGenerated ms formattedPrompt
  | .err message => .err message

/-- A `ConversationResponse` as it is sent. -/
inductive TimedConversationResponse
  | opened
  | openedWithTools (supportsToolCalls : Bool)
  | turn (outcome : GenerateOutcome)
  | snapshotted
  | err (message : Text)

def ConversationResponse.timed (ms : Nat) : ConversationResponse → TimedConversationResponse
  | .opened => .opened
  | .openedWithTools supportsToolCalls => .openedWithTools supportsToolCalls
  | .turn result => .turn { result with timeToFirstTokenMs := ms }
  | .snapshotted => .snapshotted
  | .err message => .err message

namespace Wire

def toolCall : Record Text Json ToolCall :=
  field "name" text
    |>.both (field "arguments" value) rfl
    |>.iso (fun (name, arguments) => { name, arguments }) (fun c => (c.name, c.arguments))
      (fun _ => rfl) fun _ => rfl

def generateResponse : Codec Json TimedGenerateResponse :=
  enum <|
    structVariant "Ok"
        (field "text" text
          |>.both (field "tokens_generated" usize) rfl
          |>.both (field "time_to_first_token_ms" u64) rfl
          |>.both (field "formatted_prompt" text) rfl)
      |>.or (structVariant "Err" (field "message" text)) rfl
      |>.iso
        (fun
          | .inl (((text, tokensGenerated), ms), formattedPrompt) =>
            .ok text tokensGenerated ms formattedPrompt
          | .inr message => .err message)
        (fun
          | .ok text tokensGenerated ms formattedPrompt =>
            .inl (((text, tokensGenerated), ms), formattedPrompt)
          | .err message => .inr message)
        (by rintro (_ | _) <;> rfl) (by rintro (_ | _) <;> rfl)

def embedResponse (floats : Floats) : Codec Json (EmbedResponse ℚ) :=
  enum <|
    structVariant "Ok"
        (field "vectors" (vec (vec (f32 floats)))
          |>.both (field "n_embd" usize) rfl)
      |>.or (structVariant "Err" (field "message" text)) rfl
      |>.iso
        (fun
          | .inl (vectors, nEmbd) => .ok vectors nEmbd
          | .inr message => .err message)
        (fun
          | .ok vectors nEmbd => .inl (vectors, nEmbd)
          | .err message => .inr message)
        (by rintro (_ | _) <;> rfl) (by rintro (_ | _) <;> rfl)

/-- `ConversationResponse::Turn`. -/
def turnOutcome : Record Text Json GenerateOutcome :=
  field "text" text
    |>.both (field "tokens_generated" usize) rfl
    |>.both (.defaulted "committed_tokens".toList usize 0 (Nat.zero_lt_succ _)) rfl
    |>.both (.defaulted "context_size".toList usize 0 (Nat.zero_lt_succ _)) rfl
    |>.both (field "time_to_first_token_ms" u64) rfl
    |>.both (unlessEmpty "tool_calls" (object toolCall)) rfl
    |>.both (.skipping "truncated_tool_call".toList bool false (! ·)
      (fun _ h => by simpa using h.symm) trivial) rfl
    |>.both (field "formatted_prompt" text) rfl
    |>.iso
      (fun (((((((text, tokensGenerated), committedTokens), contextSize), timeToFirstTokenMs),
          toolCalls), truncatedToolCall), formattedPrompt) =>
        { text, tokensGenerated, committedTokens, contextSize, formattedPrompt, toolCalls
          truncatedToolCall, timeToFirstTokenMs })
      (fun o => (((((((o.text, o.tokensGenerated), o.committedTokens), o.contextSize),
        o.timeToFirstTokenMs), o.toolCalls), o.truncatedToolCall), o.formattedPrompt))
      (fun _ => rfl) fun _ => rfl

def conversationResponse : Codec Json TimedConversationResponse :=
  enum <|
    unitVariant "Opened"
      |>.or (structVariant "OpenedWithTools" (field "supports_tool_calls" bool)) rfl
      |>.or (structVariant "Turn" turnOutcome) rfl
      |>.or (unitVariant "Snapshotted") rfl
      |>.or (structVariant "Err" (field "message" text)) rfl
      |>.iso
        (fun
          | .inl (.inl (.inl (.inl ()))) => .opened
          | .inl (.inl (.inl (.inr supportsToolCalls))) => .openedWithTools supportsToolCalls
          | .inl (.inl (.inr outcome)) => .turn outcome
          | .inl (.inr ()) => .snapshotted
          | .inr message => .err message)
        (fun
          | .opened => .inl (.inl (.inl (.inl ())))
          | .openedWithTools supportsToolCalls => .inl (.inl (.inl (.inr supportsToolCalls)))
          | .turn outcome => .inl (.inl (.inr outcome))
          | .snapshotted => .inl (.inr ())
          | .err message => .inr message)
        (by rintro (_ | _ | _ | _ | _) <;> rfl) (by rintro ((((_ | _) | _) | _) | _) <;> rfl)

/-! ## The sidecar -/

def role : Codec Json Role :=
  enum <|
    unitVariant "User"
      |>.or (unitVariant "Assistant") rfl
      |>.iso
        (fun
          | .inl () => .user
          | .inr () => .assistant)
        (fun
          | .user => .inl ()
          | .assistant => .inr ())
        (by rintro (_ | _) <;> rfl) (by rintro (_ | _) <;> rfl)

def turnBoundary : Record Text Json TurnBoundary :=
  field "role" role
    |>.both (field "start_pos" i32) rfl
    |>.both (field "end_pos" i32) rfl
    |>.iso (fun ((role, startPos), endPos) => { role, startPos, endPos })
      (fun t => ((t.role, t.startPos), t.endPos)) (fun _ => rfl) fun _ => rfl

def conversationSnapshotMeta : Record Text Json ConversationSnapshotMeta :=
  field "model_path" text
    |>.both (field "n_ctx" i32) rfl
    |>.both (field "overflow" overflowPolicy) rfl
    |>.both (field "turns" (vec (object turnBoundary))) rfl
    |>.both (.defaulted "tools".toList (vec (object toolSpec)) [] (by rintro a ⟨⟩)) rfl
    |>.both (optional "tool_format" toolFormat (isNull_enum _)) rfl
    |>.iso
      (fun (((((modelPath, nCtx), overflow), turns), tools), toolFormat) =>
        { modelPath, nCtx, overflow, turns, tools, toolFormat })
      (fun m => (((((m.modelPath, m.nCtx), m.overflow), m.turns), m.tools), m.toolFormat))
      (fun _ => rfl) fun _ => rfl

end Wire

/-! ## Lines of JSON -/

/-- serde_json over texts. -/
structure Serde where
  floats : Floats
  /-- `to_vec`. -/
  toText : Json → Text
  /-- `to_vec_pretty`. -/
  toTextPretty : Json → Text
  /-- The syntax of a document, or what is wrong with it. -/
  parse : Text → Except Text Json
  /-- What is reported about a document that is not of the type asked for. -/
  mismatch : Json → Text

namespace Serde

variable (serde : Serde)

/-- A document is read as it was written, and written compactly it is one line that
neither begins nor ends with a blank. -/
structure Reads (json : Json) : Prop where
  parse : serde.parse (serde.toText json) = .ok json
  line : '\n' ∉ serde.toText json
  trim : Text.trim (serde.toText json) = serde.toText json

/-- `from_str`. -/
def fromStr {α : Type} (c : Codec Json α) (text : Text) : Except Text α :=
  match serde.parse text with
  | .error error => .error error
  | .ok json =>
    match c.decode json with
    | some a => .ok a
    | none => .error (serde.mismatch json)

/-- What is written for one message: its JSON, and a newline. -/
def payload {α : Type} (c : Codec Json α) (a : α) : Text := serde.toText (c.encode a) ++ ['\n']

/-- `serde_json::from_str(line.trim())`. -/
def ofLine {α : Type} (c : Codec Json α) (line : Text) : Except Text α :=
  serde.fromStr c (Text.trim line)

end Serde

/-! ## A serde_json of few documents -/

namespace Json

/-- A character in a string; no other is escaped in what the examples write. -/
def escaped (c : Char) : Text :=
  if c = '"' ∨ c = '\\' then ['\\', c]
  else if c = '\n' then ['\\', 'n']
  else [c]

def quoted (s : Text) : Text := '"' :: s.flatMap escaped ++ ['"']

mutual

/-- The compact form. -/
def compact : Json → Text
  | .null => "null".toList
  | .bool value => (if value then "true" else "false").toList
  | .number literal => literal
  | .string s => quoted s
  | .array items => '[' :: compactItems items ++ [']']
  | .object members => '{' :: compactMembers members ++ ['}']

def compactItems : List Json → Text
  | [] => []
  | item :: items => compact item ++ (if items.isEmpty then [] else ',' :: compactItems items)

def compactMembers : List (Text × Json) → Text
  | [] => []
  | (key, json) :: members =>
    quoted key ++ ':' :: compact json ++
      (if members.isEmpty then [] else ',' :: compactMembers members)

end

end Json

/-- Whole numbers, written with `.0`. -/
def Floats.whole : Floats where
  toLiteral x := Wire.toInteger x.num ++ ".0".toList
  ofLiteral literal :=
    if literal.drop (literal.length - 2) = ".0".toList then
      (Wire.ofInteger (literal.take (literal.length - 2))).map fun n : Int => (n : ℚ)
    else none
  reads := by
    intro literal x h
    split at h
    · obtain ⟨n, -, rfl⟩ := Option.map_eq_some_iff.mp h
      simp [Wire.ofInteger_toInteger]
    · cases h
  reads_zero := by decide
  reads_one := by decide

/-- A serde_json that reads the given documents and writes every one. -/
def Serde.reading (documents : List Json) : Serde where
  floats := .whole
  toText := Json.compact
  toTextPretty := Json.compact
  parse text :=
    match documents.find? fun json => json.compact == text with
    | some json => .ok json
    | none => .error "expected value".toList
  mismatch _ := "invalid type".toList

end Rampipe
