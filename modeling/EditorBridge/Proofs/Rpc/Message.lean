import EditorBridge.Proofs.Json.ReadBack
import EditorBridge.Proofs.Rpc.Frame
/-!
# Messages read back

What the bridge writes is a body that a bridge can be sent. A reader finds every
member of a message under its name, so the grammar of inbound frames says what
becomes of responses and notifications: they are taken for what they are, unless
their id or their params are none.
-/

namespace EditorBridge.Rpc

open Json (Members)

/-! ## The members of a message -/

/-- A member that is there only if there is a value for it, as a reader finds it. -/
theorem get?_optional {α : Type} {key k : String} {f : α → Json} {o : Option α} :
    Members.get? key ((o.map fun a => (k, f a)).toList.map fun m => (m.1, m.2.sorted)).reverse =
      if key = k then o.map fun a => (f a).sorted else none := by
  cases o with
  | none => simp
  | some a => simp [Members.get?_cons]

/-- What a reader of a message finds under each name. -/
structure Holds (members : Members) (m : Message) : Prop where
  version : members.get? "jsonrpc" = some (.str m.jsonrpc)
  id : members.get? "id" = m.id.map Json.sorted
  method : members.get? "method" = m.method.map .str
  params : members.get? "params" = m.params.map Json.sorted
  result : members.get? "result" = m.result.map Json.sorted
  error : members.get? "error" = m.error.map fun e => e.toJson.sorted

/-- A message that can be read back: no number in it is a floating-point number, and it is not
nested too deeply. -/
structure Message.Legible (m : Message) : Prop where
  exact : m.toJson.Exact
  nested : m.toJson.depth ≤ Json.maxDepth

theorem holds_sorted (m : Message) :
    ∃ members : Members, m.toJson.sorted = .obj members ∧ members.Increasing ∧ Holds members m := by
  refine ⟨_, rfl, Members.increasing_ofList _, ?_⟩
  constructor <;>
    simp [Members.get?_ofList, Json.sortedMembers_eq_map, Members.get?_append, Members.get?_cons,
      get?_optional, get?_optional (f := fun j => j), Json.sorted]

theorem read_wire {m : Message} (h : m.Legible) :
    ∃ members, Json.read (Text.encode m.wire) = .ok (.obj members) ∧ Holds members m := by
  obtain ⟨members, hm, -, hh⟩ := holds_sorted m
  exact ⟨members, hm ▸ Json.read_compact h.exact h.nested, hh⟩

/-! ## What the grammar makes of them -/

/-- What a message is taken for where it arrives. -/
def Message.received (m : Message) : Frame := Frame.parse (Text.encode m.wire)

/-- A refusal that is addressed to nobody, with a code. -/
def Frame.RefusedWith (code : Int) (f : Frame) : Prop :=
  ∃ e, f = .rejected (.errorReply .null e) ∧ e.code = code

/-- No params, or an object of them. -/
def Shaped (params : Option Json) : Prop := ∀ j ∈ params, ∃ members, j = .obj members

section Grammar

variable {m : Message} {members : Members} {id : Json} {method : String} {params : Option Json}

theorem answerable_sorted (hid : isId id = true) (hf : id.sorted.Fits) : Answerable id.sorted := by
  cases id with
  | str => trivial
  | int => exact hf
  | null | bool | float | arr | obj => cases hid

theorem isId_of_answerable (h : Answerable id.sorted) : isId id = true := by
  cases id with
  | str | int => rfl
  | null | bool | float => cases h
  | arr | obj => rw [Json.sorted] at h; cases h

theorem shaped_sorted : Shaped (params.map Json.sorted) ↔ Shaped params := by
  cases params with
  | none => simp [Shaped]
  | some j => cases j <;> simp [Shaped, Json.sorted]

/-- A refusal that is not about params has the code for everything else. -/
theorem parse_invalid {body : Text.Bytes} (hr : Json.read body = .ok (.obj members))
    (hasks : ∀ q, ¬ Asks members q) (hresponds : ¬ Responds members)
    (hgiven : ∀ id method params, ¬ Misgiven members id method params)
    (hecho : echo (.obj members) = .null) : (Frame.parse body).RefusedWith (-32600) := by
  have only {members' : Members} (hr' : Json.read body = .ok (.obj members')) :
      members' = members := by
    cases hr.symm.trans hr'
    rfl
  cases hp : Frame.parse body with
  | request q =>
    obtain ⟨members', hr', ha⟩ := Frame.parse_request_iff.1 hp
    exact absurd (only hr' ▸ ha) (hasks q)
  | oneWay =>
    obtain ⟨members', hr', ha⟩ := Frame.parse_oneWay_iff.1 hp
    exact absurd (only hr' ▸ ha) hresponds
  | rejected m =>
    obtain ⟨id, e, rfl, hrefused⟩ := Frame.refused_of_parse hp
    have hid : id = .null := by
      rw [← hrefused.addressed, hr]
      exact hecho
    refine ⟨e, by rw [hid], ?_⟩
    rcases hrefused.code with hcode | hcode | hcode
    · exact absurd hr (hrefused.unreadable.1 hcode _)
    · obtain ⟨members', id', method, params, hr', hm⟩ := hrefused.misgiven.1 hcode
      exact absurd (only hr' ▸ hm) (hgiven id' method params)
    · exact hcode

/-- An answer arrives if its id is one to answer to. -/
theorem received_answer (h : m.Legible) (hversion : m.jsonrpc = version) (hid : m.id = some id)
    (hmethod : m.method = none) (houtcome : m.result.isSome ≠ m.error.isSome) :
    (isId id = true → m.received = .oneWay) ∧
    (isId id = false → m.received.RefusedWith (-32600)) := by
  obtain ⟨members, hr, hh⟩ := read_wire h
  have hsender : Members.get? "id" members = some id.sorted := by
    rw [hh.id, hid]
    rfl
  constructor
  · intro hyes
    have hanswerable : Answerable id.sorted :=
      answerable_sorted hyes (Json.Every.of_get? (Json.fits_of_read hr) hsender)
    refine Frame.parse_oneWay_iff.2 ⟨members, hr, ⟨id.sorted, ?_, hsender, ?_⟩, ?_, ?_⟩
    · rw [hh.version, hversion]
      rfl
    · rintro _ ⟨⟩
      exact hanswerable
    · rw [hh.method, hmethod]
      rfl
    · rw [hh.result, hh.error]
      simpa using houtcome
  · intro hno
    have hunanswerable : ¬ Answerable id.sorted := fun ha => by
      cases (isId_of_answerable ha).symm.trans hno
    have hnone {id' : Option Json} (henv : Enveloped members id') : False :=
      hunanswerable (henv.answerable _ (henv.sender ▸ hsender))
    refine parse_invalid hr (fun q hq => hnone hq.toEnveloped)
      (fun hq => hnone hq.enveloped.choose_spec) (fun _ _ _ hq => hnone hq.toEnveloped) ?_
    show Json.orNull ((Members.get? "id" members).filter _) = _
    rw [hsender, Option.filter_some, if_neg (by simpa using hunanswerable)]
    rfl

/-- A notification arrives if it has a method that may go without an id and params of the right
shape. -/
theorem received_notification (h : (Message.notification method params).Legible) :
    (method ≠ "" → method ≠ handshakeMethod → Shaped params →
      (Message.notification method params).received =
        .request ⟨none, method, params.map Json.sorted⟩) ∧
    (method ≠ "" → ¬ Shaped params →
      (Message.notification method params).received.RefusedWith (-32602)) ∧
    (method = "" ∨ method = handshakeMethod ∧ Shaped params →
      (Message.notification method params).received.RefusedWith (-32600)) := by
  obtain ⟨members, hr, hh⟩ := read_wire h
  have henv : Enveloped members none := ⟨hh.version, hh.id, nofun⟩
  have hcalls (hne : method ≠ "") : Calls members none method :=
    ⟨henv, hh.method, hne, hh.result, hh.error⟩
  have hparams : Members.get? "params" members = params.map Json.sorted := hh.params
  refine ⟨fun hne hshake hs => ?_, fun hne hs => ?_, fun hbad => ?_⟩
  · exact Frame.parse_request_iff.2 ⟨members, hr,
      ⟨hcalls hne, hparams, shaped_sorted.2 hs, fun hm => absurd hm hshake⟩⟩
  · cases params with
    | none => exact absurd (fun j hj => nomatch hj) hs
    | some j =>
      have hshapeless (params' : Members) : j.sorted ≠ .obj params' := fun he =>
        hs (shaped_sorted.1 fun _ hj => ⟨params', by cases hj; exact he⟩)
      have hgiven : Misgiven members none method j.sorted := ⟨hcalls hne, hparams, hshapeless⟩
      exact ⟨_, (Frame.parse_of_read hr).trans (Frame.ofJson_misgiven hgiven), rfl⟩
  · have hnamed : Members.get? "method" members = some (.str method) := hh.method
    have named {id : Option Json} {method' : String} (hc : Calls members id method') :
        method' = method ∧ id = none := by
      have := hc.named.symm.trans hnamed
      exact ⟨by simpa using this, hc.sender.symm.trans hh.id⟩
    refine parse_invalid hr (fun q hq => ?_) (fun hq => ?_) (fun id method' params' hq => ?_) ?_
    · obtain ⟨hm, hid⟩ := named hq.toCalls
      rcases hbad with hempty | ⟨hshake, -⟩
      · exact hq.nonempty (hm.trans hempty)
      · exact hq.handshake (hm.trans hshake) hid
    · cases hnamed.symm.trans hq.method
    · obtain ⟨hm, -⟩ := named hq.toCalls
      rcases hbad with hempty | ⟨-, hs⟩
      · exact hq.nonempty (hm.trans hempty)
      · obtain ⟨params'', rfl⟩ := shaped_sorted.2 hs params' (hparams.symm.trans hq.given)
        exact hq.shapeless params'' rfl
    · exact henv.echo_eq

end Grammar

/-- What the bridge writes is taken for what it is where it arrives: an answer for an answer if its
id is one to answer to, a notification for a request without an id, with its own method and
params. -/
theorem wire_received :
    (∀ (id : Json) (m : Message),
      (∃ result, m = .response id result) ∨ (∃ e, m = .errorReply id e) → m.Legible →
      (isId id = true → m.received = .oneWay) ∧
      (isId id = false → m.received.RefusedWith (-32600))) ∧
    ∀ (method : String) (params : Option Json),
      (Message.notification method params).Legible → (∀ j ∈ params, j.WellFormed) →
      (method ≠ "" → method ≠ handshakeMethod → Shaped params →
        (Message.notification method params).received = .request ⟨none, method, params⟩) ∧
      (method ≠ "" → ¬ Shaped params →
        (Message.notification method params).received.RefusedWith (-32602)) ∧
      (method = "" ∨ method = handshakeMethod ∧ Shaped params →
        (Message.notification method params).received.RefusedWith (-32600)) := by
  constructor
  · rintro id _ (⟨result, rfl⟩ | ⟨e, rfl⟩) h
    · exact received_answer h rfl rfl rfl nofun
    · exact received_answer h rfl rfl rfl nofun
  · intro method params h hw
    have hsame : params.map Json.sorted = params := by
      cases params with
      | none => rfl
      | some j => exact congrArg some (Json.sorted_of_wellFormed j (hw j rfl))
    have hreceived := received_notification h
    rwa [hsame] at hreceived

/-- An answer to a negative id, a refusal of an id that is none, a notification with escapes, a
surrogate pair and the largest integer in its params, one whose params are `null`, and a handshake
without an id. -/
theorem wire_received_samples :
    (Message.response (.int (-7)) (.arr [.null, .bool true])).received = .oneWay ∧
    (Message.errorReply .null (.invalidParams "no such node")).received.RefusedWith (-32600) ∧
    (Message.notification "changed" (some (.obj [("a\t\"", .str "\x01\\/é😀"),
        ("b", .arr [.int 18446744073709551615, .obj []])]))).received =
      .request ⟨none, "changed", some (.obj [("a\t\"", .str "\x01\\/é😀"),
        ("b", .arr [.int 18446744073709551615, .obj []])])⟩ ∧
    (Message.notification "changed" (some .null)).received.RefusedWith (-32602) ∧
    (Message.notification "initialize" none).received.RefusedWith (-32600) := by
  have legible {m : Message} (h : m.toJson.Exact) (hd : m.toJson.depth ≤ 4) : m.Legible :=
    ⟨h, Nat.le_trans hd (by decide)⟩
  have hnull : ¬ Shaped (some .null) := fun h => nomatch h .null rfl
  refine ⟨?_, ?_, ?_, ?_, ?_⟩
  · have hexact : (Message.response (.int (-7)) (.arr [.null, .bool true])).toJson.Exact := by
      simp [Message.response, Message.toJson, Json.Exact, Json.Every, Json.EveryMember,
        Json.EveryItem, Json.Integral, Json.InWord]
    exact (wire_received.1 _ _ (.inl ⟨_, rfl⟩) (legible hexact (by decide))).1 rfl
  · have hexact : (Message.errorReply .null (.invalidParams "no such node")).toJson.Exact := by
      simp [Message.errorReply, Message.toJson, Error.invalidParams, Error.tagged, Error.toJson,
        invalidParamsCode, Json.Exact, Json.Every, Json.EveryMember, Json.Integral, Json.InWord]
    exact (wire_received.1 _ _ (.inr ⟨_, rfl⟩) (legible hexact (by decide))).2 rfl
  · refine (wire_received.2 _ _ (legible ?_ (by decide)) ?_).1 (by decide) (by decide) ?_
    · simp [Message.notification, Message.toJson, Json.Exact, Json.Every, Json.EveryMember,
        Json.EveryItem, Json.Integral, Json.InWord]
    · rintro _ ⟨⟩
      simp only [Json.WellFormed, Json.WellFormedMembers, Json.WellFormedItems, Members.Increasing]
      decide
    · rintro _ ⟨⟩
      exact ⟨_, rfl⟩
  · refine (wire_received.2 _ _ (legible ?_ (by decide)) ?_).2.1 (by decide) hnull
    · simp [Message.notification, Message.toJson, Json.Exact, Json.Every, Json.EveryMember,
        Json.Integral]
    · simp [Json.WellFormed]
  · refine (wire_received.2 _ _ (legible ?_ (by decide)) (by simp)).2.2
      (.inr ⟨rfl, by simp [Shaped]⟩)
    simp [Message.notification, Message.toJson, Json.Exact, Json.Every, Json.EveryMember,
      Json.Integral]

end EditorBridge.Rpc
