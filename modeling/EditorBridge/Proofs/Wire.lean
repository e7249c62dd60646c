import EditorBridge.Broker.Ack
import EditorBridge.Proofs.Json.Decode
import EditorBridge.Proofs.Rpc.Message
import EditorBridge.Tool.Result
/-!
# What is written is read back

Messages, errors, acknowledgements and results of tools are written as objects
that leave out what they do not have, and read from objects in which `null`
stands for nothing. So all of a value comes back but a `null` in an optional
field: `ReadBack`.
-/

namespace EditorBridge

open Json (Decoder Members present)

/-- What becomes of a value that is written and read again: it comes back cleared of `null`s, which
is as it was exactly if it was free of them, and then it stays as it is. -/
structure ReadBack {α : Type} (write : α → Json) (read : Decoder α) (cleared : α → α)
    (NullFree : α → Prop) (x : α) : Prop where
  comes : read (write x).sorted = .ok (cleared x)
  same : read (write x).sorted = .ok x ↔ NullFree x
  stays : read (write (cleared x)).sorted = .ok (cleared x)

/-- It is enough that values come back cleared, and that a cleared value is free of `null`s. -/
theorem ReadBack.of_comes {α : Type} {write : α → Json} {read : Decoder α} {cleared : α → α}
    {NullFree Proper : α → Prop} {x : α}
    (comes : ∀ x, Proper x → read (write x).sorted = .ok (cleared x))
    (hself : ∀ {x}, cleared x = x ↔ NullFree x) (hproper : ∀ {x}, Proper x → Proper (cleared x))
    (hfree : ∀ x, NullFree (cleared x)) (hx : Proper x) :
    ReadBack write read cleared NullFree x where
  comes := comes x hx
  same := by rw [comes x hx, ← hself, Except.ok.injEq]
  stays := by rw [comes _ (hproper hx), hself.2 (hfree x)]

/-! ## Errors -/

namespace Rpc

namespace Error

/-- An error as its type has it: the code is a 32-bit integer, and the data is in order. -/
structure Proper (e : Error) : Prop where
  code : -2147483648 ≤ e.code ∧ e.code ≤ 2147483647
  data : ∀ j ∈ e.data, j.WellFormed

/-- An error without `null` as its data. -/
def cleared (e : Error) : Error := { e with data := present e.data }

/-- The data is not `null`. -/
def NullFree (e : Error) : Prop := e.data ≠ some .null

theorem decode_toJson {e : Error} (h : e.Proper) : decode e.toJson.sorted = .ok e.cleared := by
  obtain ⟨members, hj, hm, hcode, hmessage, hdata⟩ : ∃ members : Members,
      e.toJson.sorted = .obj members ∧ members.Increasing ∧
      members.get? "code" = some (.int e.code) ∧ members.get? "message" = some (.str e.message) ∧
      members.get? "data" = e.data := by
    refine ⟨_, rfl, Members.increasing_ofList _, ?_, ?_, ?_⟩ <;>
      simp [Members.get?_ofList, Json.sortedMembers_eq_map, Members.get?_append, Members.get?_cons,
        get?_optional (f := fun j => j), Json.sorted, Json.map_sorted h.data]
  have hread : record.Reads members (Error.mk e.code e.message (present e.data)) :=
    .seq (.seq (.seq (Json.Record.reads_pure _) (Json.Record.reads_required hcode (if_pos h.code)))
      (Json.Record.reads_required hmessage rfl)) (Json.Record.reads_any hdata)
  exact hj ▸ hread.decode hm _

theorem cleared_eq_self_iff {e : Error} : e.cleared = e ↔ e.NullFree := by
  obtain ⟨code, message, data⟩ := e
  simp [cleared, NullFree, Json.present_eq_self_iff]

theorem Proper.cleared {e : Error} (h : e.Proper) : e.cleared.Proper :=
  ⟨h.code, fun j hj => h.data j (Json.mem_of_mem_present hj)⟩

theorem nullFree_cleared (e : Error) : e.cleared.NullFree := Json.present_ne_null e.data

end Error

/-! ## Messages -/

namespace Message

/-- A message as its type has it: every value in it is in order. -/
structure Proper (m : Message) : Prop where
  id : ∀ j ∈ m.id, j.WellFormed
  params : ∀ j ∈ m.params, j.WellFormed
  result : ∀ j ∈ m.result, j.WellFormed
  error : ∀ e ∈ m.error, e.Proper

/-- A message without `null` as its id, its params, its result or the data of its error. -/
def cleared (m : Message) : Message :=
  { m with
    id := present m.id
    params := present m.params
    result := present m.result
    error := m.error.map Error.cleared }

/-- None of these is `null`. -/
def NullFree (m : Message) : Prop :=
  m.id ≠ some .null ∧ m.params ≠ some .null ∧ m.result ≠ some .null ∧ ∀ e ∈ m.error, e.NullFree

theorem decode_toJson {m : Message} (h : m.Proper) : decode m.toJson.sorted = .ok m.cleared := by
  obtain ⟨members, hj, hm, hh⟩ := holds_sorted m
  have hid := hh.id.trans (Json.map_sorted h.id)
  have hparams := hh.params.trans (Json.map_sorted h.params)
  have hresult := hh.result.trans (Json.map_sorted h.result)
  have herror : ∀ e ∈ m.error,
      Error.decode.optional e.toJson.sorted = .ok (some e.cleared) := fun e he => by
    show (Error.decode e.toJson.sorted).map some = _
    rw [Error.decode_toJson (h.error e he)]
    rfl
  have hread : record.Reads members (Message.mk m.jsonrpc (present m.id) m.method
      (present m.params) (present m.result) (m.error.map Error.cleared)) :=
    .seq (.seq (.seq (.seq (.seq (.seq (Json.Record.reads_pure _)
      (Json.Record.reads_required hh.version rfl)) (Json.Record.reads_any hid))
      (Json.Record.reads_optional_self hh.method fun _ _ => rfl)) (Json.Record.reads_any hparams))
      (Json.Record.reads_any hresult)) (Json.Record.reads_optional hh.error herror)
  exact hj ▸ hread.decode hm _

theorem cleared_eq_self_iff {m : Message} : m.cleared = m ↔ m.NullFree := by
  obtain ⟨jsonrpc, id, method, params, result, error⟩ := m
  have herror : error.map Error.cleared = error ↔ ∀ e ∈ error, e.NullFree := by
    cases error <;> simp [Error.cleared_eq_self_iff]
  simp [cleared, NullFree, Json.present_eq_self_iff, herror]

theorem Proper.cleared {m : Message} (h : m.Proper) : m.cleared.Proper where
  id j hj := h.id j (Json.mem_of_mem_present hj)
  params j hj := h.params j (Json.mem_of_mem_present hj)
  result j hj := h.result j (Json.mem_of_mem_present hj)
  error e he := by
    obtain ⟨e', he', rfl⟩ := Option.map_eq_some_iff.1 he
    exact (h.error e' he').cleared

theorem nullFree_cleared (m : Message) : m.cleared.NullFree := by
  refine ⟨Json.present_ne_null _, Json.present_ne_null _, Json.present_ne_null _, fun e he => ?_⟩
  obtain ⟨e, -, rfl⟩ := Option.map_eq_some_iff.1 he
  exact e.nullFree_cleared

end Message

end Rpc

/-! ## Acknowledgements -/

namespace Broker.Ack

/-- An acknowledgement as its type has it: its result is in order, and its time is read from its
text as it is. -/
structure Proper (a : Ack) : Prop where
  result : ∀ j ∈ a.result, j.WellFormed
  ackedAt : ∀ t ∈ a.ackedAt, Timestamp.read t.text = .ok t

/-- An acknowledgement without `null` as its result. -/
def cleared (a : Ack) : Ack := { a with result := present a.result }

/-- The result is not `null`. -/
def NullFree (a : Ack) : Prop := a.result ≠ some .null

theorem decode_toJson {a : Ack} (h : a.Proper) : decode a.toJson.sorted = .ok a.cleared := by
  obtain ⟨members, hj, hm, hid, hsuccess, hresult, herror, htime⟩ : ∃ members : Members,
      a.toJson.sorted = .obj members ∧ members.Increasing ∧
      members.get? "commandId" = some (.str a.commandId) ∧
      members.get? "success" = some (.bool a.success) ∧ members.get? "result" = a.result ∧
      members.get? "error" = a.error.map .str ∧
      members.get? "ackedAt" = a.ackedAt.map fun t => .str t.text := by
    refine ⟨_, rfl, Members.increasing_ofList _, ?_, ?_, ?_, ?_, ?_⟩ <;>
      simp [Members.get?_ofList, Json.sortedMembers_eq_map, Members.get?_append, Members.get?_cons,
        Rpc.get?_optional, Rpc.get?_optional (f := fun j => j), Json.sorted,
        Json.map_sorted h.result]
  have hmoment : ∀ t ∈ a.ackedAt,
      Timestamp.decode.optional (.str t.text) = .ok (some t) := fun t ht => by
    have hdecode : Timestamp.decode (.str t.text) = .ok t := by
      rw [Timestamp.decode, h.ackedAt t ht]
      rfl
    rw [Decoder.optional, hdecode]
    · rfl
    · exact nofun
  have hread : record.Reads members (Ack.mk a.commandId a.success (present a.result) a.error
      a.ackedAt) :=
    .seq (.seq (.seq (.seq (.seq (Json.Record.reads_pure _)
      (Json.Record.reads_required hid rfl)) (Json.Record.reads_required hsuccess rfl))
      (Json.Record.reads_any hresult)) (Json.Record.reads_optional_self herror fun _ _ => rfl))
      (Json.Record.reads_optional_self htime hmoment)
  exact hj ▸ hread.decode hm _

theorem cleared_eq_self_iff {a : Ack} : a.cleared = a ↔ a.NullFree := by
  obtain ⟨commandId, success, result, error, ackedAt⟩ := a
  simp [cleared, NullFree, Json.present_eq_self_iff]

theorem Proper.cleared {a : Ack} (h : a.Proper) : a.cleared.Proper :=
  ⟨fun j hj => h.result j (Json.mem_of_mem_present hj), h.ackedAt⟩

theorem nullFree_cleared (a : Ack) : a.cleared.NullFree := Json.present_ne_null a.result

end Broker.Ack

/-! ## Results of tools -/

namespace Tool

theorem Content.decode_toJson (c : Content) : Content.decode c.toJson.sorted = .ok c := rfl

namespace Result

/-- A result as its type has it: the value in it is in order. -/
def Proper (r : Result) : Prop := ∀ j ∈ r.structured, j.WellFormed

/-- A result without `null` as its value. -/
def cleared (r : Result) : Result := { r with structured := present r.structured }

/-- The value is not `null`. -/
def NullFree (r : Result) : Prop := r.structured ≠ some .null

theorem decode_toJson {r : Result} (h : r.Proper) : decode r.toJson.sorted = .ok r.cleared := by
  obtain ⟨members, hj, hm, hcontent, hstructured, herror⟩ : ∃ members : Members,
      r.toJson.sorted = .obj members ∧ members.Increasing ∧
      members.get? "content" = some (.arr (r.content.map fun c => c.toJson.sorted)) ∧
      members.get? "structuredContent" = r.structured ∧
      members.get? "isError" = some (.bool r.isError) := by
    refine ⟨_, rfl, Members.increasing_ofList _, ?_, ?_, ?_⟩ <;>
      simp [Members.get?_ofList, Json.sortedMembers_eq_map, Json.sortedItems_eq_map,
        Members.get?_append, Members.get?_cons, Rpc.get?_optional (f := fun j => j), Json.sorted,
        Json.map_sorted h]
  have hlist : Decoder.list Content.decode (.arr (r.content.map fun c => c.toJson.sorted)) =
      .ok r.content := by
    have hmap := Json.list_map (g := id) fun c (_ : c ∈ r.content) => c.decode_toJson
    rwa [List.map_id_fun, id_eq] at hmap
  have hread : (((Json.Record.pure Result.mk).seq
      (.required "content" (Decoder.list Content.decode))).seq
      (.maybe "structuredContent" Decoder.any)).seq
      (.withDefault "isError" Decoder.boolean false) |>.Reads members
      (Result.mk r.content (present r.structured) r.isError) :=
    .seq (.seq (.seq (Json.Record.reads_pure _) (Json.Record.reads_required hcontent hlist))
      (Json.Record.reads_any hstructured))
      (Json.Record.reads_field (fun hnone => by cases herror.symm.trans hnone) fun j hj' => by
        cases herror.symm.trans hj'
        rfl)
  exact hj ▸ hread.decode hm _

theorem cleared_eq_self_iff {r : Result} : r.cleared = r ↔ r.NullFree := by
  obtain ⟨content, structured, isError⟩ := r
  simp [cleared, NullFree, Json.present_eq_self_iff]

theorem Proper.cleared {r : Result} (h : r.Proper) : r.cleared.Proper :=
  fun j hj => h j (Json.mem_of_mem_present hj)

theorem nullFree_cleared (r : Result) : r.cleared.NullFree := Json.present_ne_null r.structured

end Result

end Tool

/-! ## All of them -/

/-- What is read of a written message, error, acknowledgement or result is the same but for the
`null`s in its optional fields. -/
theorem wire_readBack :
    (∀ m : Rpc.Message, m.Proper →
      ReadBack Rpc.Message.toJson Rpc.Message.decode Rpc.Message.cleared Rpc.Message.NullFree m) ∧
    (∀ e : Rpc.Error, e.Proper →
      ReadBack Rpc.Error.toJson Rpc.Error.decode Rpc.Error.cleared Rpc.Error.NullFree e) ∧
    (∀ a : Broker.Ack, a.Proper →
      ReadBack Broker.Ack.toJson Broker.Ack.decode Broker.Ack.cleared Broker.Ack.NullFree a) ∧
    ∀ r : Tool.Result, r.Proper →
      ReadBack Tool.Result.toJson Tool.Result.decode Tool.Result.cleared Tool.Result.NullFree r :=
  ⟨fun _ => .of_comes (fun _ => Rpc.Message.decode_toJson) Rpc.Message.cleared_eq_self_iff
      Rpc.Message.Proper.cleared Rpc.Message.nullFree_cleared,
    fun _ => .of_comes (fun _ => Rpc.Error.decode_toJson) Rpc.Error.cleared_eq_self_iff
      Rpc.Error.Proper.cleared Rpc.Error.nullFree_cleared,
    fun _ => .of_comes (fun _ => Broker.Ack.decode_toJson) Broker.Ack.cleared_eq_self_iff
      Broker.Ack.Proper.cleared Broker.Ack.nullFree_cleared,
    fun _ => .of_comes (fun _ => Tool.Result.decode_toJson) Tool.Result.cleared_eq_self_iff
      Tool.Result.Proper.cleared Tool.Result.nullFree_cleared⟩

/-- A refusal that is addressed to nobody and has `null` for its data: the message that is read is
no response. -/
def refusalToNobody : Rpc.Message := .errorReply .null ⟨-32600, "no", some .null⟩

/-- An acknowledgement with a value in it, and its time. -/
def timedAck : Broker.Ack :=
  ⟨"cmd-1", true, some (.arr [.null]), none, some ⟨1704067200, 500000000⟩⟩

/-- A refusal loses two `null`s, an acknowledgement with one further inside loses nothing, and a
result loses the value that it is about. -/
theorem wire_readBack_nulls :
    (refusalToNobody.isResponse = true ∧
      ∃ m, Rpc.Message.decode refusalToNobody.toJson.sorted = .ok m ∧ m.isResponse = false ∧
        m.error = some ⟨-32600, "no", none⟩) ∧
    Rpc.Error.decode (Rpc.Error.invalidParams "no").toJson.sorted = .ok (.invalidParams "no") ∧
    Broker.Ack.decode timedAck.toJson.sorted = .ok timedAck ∧
    Tool.Result.decode (Tool.Result.success .null).toJson.sorted =
      .ok ⟨[⟨"null"⟩], none, false⟩ := by
  obtain ⟨message, error, ack, result⟩ := wire_readBack
  have hmessage : refusalToNobody.Proper := by
    refine ⟨?_, nofun, nofun, ?_⟩
    · rintro _ ⟨⟩
      simp [Json.WellFormed]
    · rintro _ ⟨⟩
      exact ⟨by decide, by rintro _ ⟨⟩; simp [Json.WellFormed]⟩
  have herror : (Rpc.Error.invalidParams "no").Proper := by
    refine ⟨by decide, ?_⟩
    rintro _ ⟨⟩
    simp [Json.WellFormed, Json.WellFormedMembers, Members.Increasing]
  have hack : timedAck.Proper := by
    refine ⟨?_, ?_⟩
    · rintro _ ⟨⟩
      simp [Json.WellFormed, Json.WellFormedItems]
    · rintro _ ⟨⟩
      rfl
  have hresult : (Tool.Result.success .null).Proper := by
    rintro _ ⟨⟩
    simp [Json.WellFormed]
  refine ⟨⟨rfl, _, (message _ hmessage).comes, rfl, rfl⟩, (error _ herror).same.2 ?_,
    (ack _ hack).same.2 ?_, ?_⟩
  · simp [Rpc.Error.NullFree, Rpc.Error.invalidParams, Rpc.Error.tagged]
  · simp [Broker.Ack.NullFree, timedAck]
  · rw [(result _ hresult).comes]
    exact congrArg Except.ok (by decide +kernel)

end EditorBridge
