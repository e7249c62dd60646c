import EditorBridge.Proofs.Json.Reader
import EditorBridge.Rpc.Frame
/-!
# The grammar of inbound frames

What a request and a response look like is said over the members of an object,
in no order. A body is taken for what it looks like, and a body that looks like
neither is refused. The refusal has the id of the body where there is one to
answer to, and its code tells text that is no JSON and calls that are at fault
only in their params from everything else.
-/

namespace EditorBridge.Rpc

open Text (Bytes)

/-! ## The grammar -/

/-- An id to answer to: a text, or an integer of 64 bits. -/
def Answerable : Json → Prop
  | .str _ => True
  | .int n => Json.InWord n
  | _ => False

instance : DecidablePred Answerable := fun j =>
  match j with
  | .str _ => .isTrue trivial
  | .int n => inferInstanceAs (Decidable (-0x8000000000000000 ≤ n ∧ n < 0x10000000000000000))
  | .null | .bool _ | .float _ | .arr _ | .obj _ => .isFalse id

section Grammar

variable (members : Json.Members)

/-- The version, and an id to answer to or none. -/
structure Enveloped (id : Option Json) : Prop where
  version : members.get? "jsonrpc" = some (.str "2.0")
  sender : members.get? "id" = id
  answerable : ∀ j ∈ id, Answerable j

/-- A method and no outcome. -/
structure Calls (id : Option Json) (method : String) : Prop extends Enveloped members id where
  named : members.get? "method" = some (.str method)
  nonempty : method ≠ ""
  result : members.get? "result" = none
  error : members.get? "error" = none

/-- A request, or without an id a notification. -/
structure Asks (q : Request) : Prop extends Calls members q.id q.method where
  given : members.get? "params" = q.params
  shaped : ∀ j ∈ q.params, ∃ params, j = .obj params
  handshake : q.method = "initialize" → q.id ≠ none

/-- A response: an id, no method and one of two outcomes. -/
structure Responds : Prop where
  enveloped : ∃ id, Enveloped members (some id)
  method : members.get? "method" = none
  outcome : (members.get? "result").isSome ≠ (members.get? "error").isSome

/-- A call whose params are no object. -/
structure Misgiven (id : Option Json) (method : String) (params : Json) : Prop
    extends Calls members id method where
  given : members.get? "params" = some params
  shapeless : ∀ params', params ≠ .obj params'

end Grammar

/-- The id that a refusal of a value is addressed to. -/
def echo (j : Json) : Json := Json.orNull ((j.get? "id").filter fun id => decide (Answerable id))

/-- A body that holds no JSON. -/
def Unreadable (body : Bytes) : Prop := ∀ j, Json.read body ≠ .ok j

/-- How a body is refused. -/
structure Refused (body : Bytes) (id : Json) (e : Error) : Prop where
  addressed : ((Json.read body).toOption.map echo).getD .null = id
  code : e.code = -32700 ∨ e.code = -32602 ∨ e.code = -32600
  unreadable : e.code = -32700 ↔ Unreadable body
  misgiven : e.code = -32602 ↔ ∃ members id method params,
    Json.read body = .ok (.obj members) ∧ Misgiven members id method params

/-! ## What the checks come to -/

section Checks

variable {members : Json.Members} {id : Option Json} {method : String}

theorem echo_eq (hid : members.get? "id" = id) (ha : ∀ j ∈ id, Answerable j) :
    echo (.obj members) = Json.orNull id := by
  show Json.orNull ((members.get? "id").filter _) = _
  rw [hid]
  cases id with
  | none => rfl
  | some j => simp [Option.filter, ha j rfl]

theorem Enveloped.echo_eq (h : Enveloped members id) : echo (.obj members) = Json.orNull id :=
  Rpc.echo_eq h.sender h.answerable

theorem Calls.unanswered (h : Calls members id method) :
    ¬ ((members.get? "result").isSome ∨ (members.get? "error").isSome) := by
  simp [h.result, h.error]

namespace Frame

/-- What a frame says of the members it was made of. -/
inductive Judged (members : Json.Members) : Frame → Prop
  | asks {q : Request} : Asks members q → Judged members (.request q)
  | responds : Responds members → Judged members .oneWay
  | misgiven {id : Option Json} {method : String} {params : Json} (detail : String) :
      Misgiven members id method params →
      Judged members (refuse (echo (.obj members)) (.invalidParams detail))
  | invalid (detail : String) : Judged members (invalid (echo (.obj members)) detail)

theorem Judged.request {q : Request} (h : Judged members (.request q)) : Asks members q := by
  generalize hf : Frame.request q = f at h
  cases h with
  | asks ha => exact Frame.request.inj hf ▸ ha
  | responds | misgiven | invalid => cases hf

theorem Judged.oneWay (h : Judged members .oneWay) : Responds members := by
  generalize hf : Frame.oneWay = f at h
  cases h with
  | responds ha => exact ha
  | asks | misgiven | invalid => cases hf

theorem judged_ofResponse (h : Enveloped members id) (hm : members.get? "method" = none) :
    Judged members (ofResponse id members) := by
  unfold ofResponse
  rw [← h.echo_eq]
  split
  · exact .invalid _
  · exact .invalid _
  · next hboth hneither =>
    cases id with
    | none =>
      have hnull : echo (.obj members) = .null := h.echo_eq
      exact hnull ▸ .invalid _
    | some id =>
      refine .responds ⟨⟨id, h⟩, hm, fun he => ?_⟩
      cases hr : (members.get? "result").isSome with
      | true => exact hboth hr (he ▸ hr)
      | false => exact hneither hr (he ▸ hr)

theorem judged_ofCall (h : Enveloped members id) (hm : members.get? "method" = some (.str method))
    (hn : method ≠ "") : Judged members (ofCall id method members) := by
  unfold ofCall
  rw [← h.echo_eq]
  dsimp only
  split
  · exact .invalid _
  · next hneither =>
    obtain ⟨hresult, herror⟩ := not_or.1 hneither
    have hcall : Calls members id method :=
      ⟨h, hm, hn, by simpa using hresult, by simpa using herror⟩
    have accepted (params : Option Json) (hp : members.get? "params" = params)
        (hshape : ∀ j ∈ params, ∃ params, j = .obj params) :
        Judged members (if method = handshakeMethod ∧ id = none then
          invalid .null "initialize requires an id" else .request ⟨id, method, params⟩) := by
      split
      · next hshake =>
        have hnull : echo (.obj members) = .null := by rw [h.echo_eq, hshake.2]; rfl
        exact hnull ▸ .invalid _
      · next hshake =>
        exact .asks ⟨hcall, hp, hshape, fun hi hnone => hshake ⟨hi, hnone⟩⟩
    split
    · next hp => exact accepted none hp (by simp)
    · next params hp => exact accepted (some (.obj params)) hp (by simp)
    · next params hshape hp => exact .misgiven _ ⟨hcall, hp, hshape⟩

theorem judged_ofMembers (hid : members.get? "id" = id) (ha : ∀ j ∈ id, Answerable j) :
    Judged members (ofMembers id members) := by
  unfold ofMembers
  rw [← echo_eq hid ha]
  split
  · exact .invalid _
  · next hversion =>
    have h : Enveloped members id := ⟨Classical.not_not.1 hversion, hid, ha⟩
    split
    · next hm => exact judged_ofResponse h hm
    · next method hm =>
      split
      · exact .invalid _
      · next hn => exact judged_ofCall h hm hn
    · exact .invalid _

theorem judged_ofJson (hf : (Json.obj members).Fits) :
    Judged members (ofJson (.obj members)) := by
  simp only [ofJson]
  cases hid : members.get? "id" with
  | none => exact judged_ofMembers hid (by simp)
  | some j =>
    have hj : j.Fits := hf.of_get? hid
    cases j with
    | str s => exact judged_ofMembers hid (by simp [Answerable])
    | int n =>
      refine judged_ofMembers hid fun j hj' => ?_
      obtain rfl : .int n = j := Option.some.inj hj'
      exact hj
    | null | bool | float | arr | obj =>
      have hnull : echo (.obj members) = .null := by
        show Json.orNull ((members.get? "id").filter _) = _
        rw [hid]
        rfl
      show Judged members (invalid .null _)
      exact hnull ▸ .invalid _

/-! ## What they let through -/

theorem ofJson_enveloped (h : Enveloped members id) :
    ofJson (.obj members) = ofMembers id members := by
  simp only [ofJson, h.sender]
  cases id with
  | none => rfl
  | some j =>
    have hj := h.answerable j rfl
    cases j with
    | str | int => rfl
    | null | bool | float | arr | obj => cases hj

theorem ofJson_calls (h : Calls members id method) :
    ofJson (.obj members) = ofCall id method members := by
  rw [ofJson_enveloped h.toEnveloped, ofMembers, if_neg (fun hn => hn h.version), h.named]
  exact if_neg h.nonempty

theorem ofJson_asks {q : Request} (h : Asks members q) : ofJson (.obj members) = .request q := by
  have hshake : ¬ (q.method = handshakeMethod ∧ q.id = none) := fun hn => h.handshake hn.1 hn.2
  rw [ofJson_calls h.toCalls]
  simp only [ofCall, if_neg h.toCalls.unanswered, if_neg hshake, h.given]
  cases hp : q.params with
  | none => cases q; cases hp; rfl
  | some j =>
    obtain ⟨params, rfl⟩ := h.shaped j hp
    cases q; cases hp; rfl

theorem ofJson_misgiven {params : Json} (h : Misgiven members id method params) :
    ofJson (.obj members) =
      refuse (Json.orNull id) (.invalidParams "Invalid params: params must be an object") := by
  rw [ofJson_calls h.toCalls]
  simp only [ofCall, if_neg h.toCalls.unanswered, h.given]
  cases params with
  | obj params => exact absurd rfl (h.shapeless params)
  | null | bool | int | float | str | arr => rfl

theorem ofJson_responds (h : Responds members) : ofJson (.obj members) = .oneWay := by
  obtain ⟨⟨id, henv⟩, hm, houtcome⟩ := h
  rw [ofJson_enveloped henv, ofMembers, if_neg (fun hn => hn henv.version), hm]
  simp only [ofResponse]
  cases hr : (members.get? "result").isSome <;> cases he : (members.get? "error").isSome
  · exact absurd (hr.trans he.symm) houtcome
  · rfl
  · rfl
  · exact absurd (hr.trans he.symm) houtcome

/-! ## Bodies -/

variable {body : Bytes}

theorem parse_of_read (h : Json.read body = .ok (.obj members)) :
    parse body = ofJson (.obj members) := by
  rw [parse, h]

/-- A body that is no object is refused, without an id. -/
theorem parse_of_no_object (h : ∀ members, Json.read body ≠ .ok (.obj members)) :
    ∃ e, parse body = .rejected (.errorReply .null e) ∧ Refused body .null e := by
  have hgiven : ¬ ∃ members id method params,
      Json.read body = .ok (.obj members) ∧ Misgiven members id method params :=
    fun ⟨members, _, _, _, hr, _⟩ => h members hr
  unfold parse
  cases hr : Json.read body with
  | error fault =>
    have hread : Unreadable body := fun j hj => by cases hr.symm.trans hj
    exact ⟨_, rfl, by rw [hr]; rfl, .inl rfl, iff_of_true rfl hread,
      iff_of_false (show (-32700 : Int) ≠ -32602 by decide) hgiven⟩
  | ok j =>
    have hread : ¬ Unreadable body := fun hn => hn j hr
    have refused (hecho : echo j = .null) (detail : String) :
        Refused body .null (.invalidRequest detail) :=
      ⟨by rw [hr]; exact hecho, .inr (.inr rfl),
        iff_of_false (show (-32600 : Int) ≠ -32700 by decide) hread,
        iff_of_false (show (-32600 : Int) ≠ -32602 by decide) hgiven⟩
    cases j with
    | obj members => exact absurd hr (h members)
    | arr | null | bool | int | float | str => exact ⟨_, rfl, refused rfl _⟩

/-- A body is an object that is judged by its members, or it is refused. -/
theorem parse_cases (body : Bytes) :
    (∃ members, Json.read body = .ok (.obj members) ∧ Judged members (parse body)) ∨
    ∃ e, parse body = .rejected (.errorReply .null e) ∧ Refused body .null e := by
  by_cases hobj : ∃ members, Json.read body = .ok (.obj members)
  · obtain ⟨members, hr⟩ := hobj
    exact .inl ⟨members, hr, parse_of_read hr ▸ judged_ofJson (Json.fits_of_read hr)⟩
  · exact .inr (parse_of_no_object (not_exists.1 hobj))

theorem parse_request_iff {q : Request} : parse body = .request q ↔
    ∃ members, Json.read body = .ok (.obj members) ∧ Asks members q := by
  constructor
  · intro h
    rcases parse_cases body with ⟨members, hr, hj⟩ | ⟨e, he, -⟩
    · rw [h] at hj
      exact ⟨members, hr, hj.request⟩
    · cases h.symm.trans he
  · rintro ⟨members, hr, ha⟩
    exact (parse_of_read hr).trans (ofJson_asks ha)

theorem parse_oneWay_iff : parse body = .oneWay ↔
    ∃ members, Json.read body = .ok (.obj members) ∧ Responds members := by
  constructor
  · intro h
    rcases parse_cases body with ⟨members, hr, hj⟩ | ⟨e, he, -⟩
    · rw [h] at hj
      exact ⟨members, hr, hj.oneWay⟩
    · cases h.symm.trans he
  · rintro ⟨members, hr, ha⟩
    exact (parse_of_read hr).trans (ofJson_responds ha)

/-- Whatever is refused is refused by the rules. -/
theorem refused_of_parse {m : Message} (h : parse body = .rejected m) :
    ∃ id e, m = .errorReply id e ∧ Refused body id e := by
  rcases parse_cases body with ⟨members, hr, hj⟩ | ⟨e, he, hrefused⟩
  · have hread : ¬ Unreadable body := fun hn => hn _ hr
    have hecho : ((Json.read body).toOption.map echo).getD .null = echo (.obj members) := by
      rw [hr]
      rfl
    rw [h] at hj
    generalize hf : Frame.rejected m = f at hj
    cases hj with
    | asks | responds => cases hf
    | misgiven detail hm =>
      cases hf
      exact ⟨_, _, rfl, hecho, .inr (.inl rfl),
        iff_of_false (show (-32602 : Int) ≠ -32700 by decide) hread,
        iff_of_true rfl ⟨members, _, _, _, hr, hm⟩⟩
    | invalid detail =>
      cases hf
      refine ⟨_, _, rfl, hecho, .inr (.inr rfl),
        iff_of_false (show (-32600 : Int) ≠ -32700 by decide) hread,
        iff_of_false (show (-32600 : Int) ≠ -32602 by decide) ?_⟩
      rintro ⟨members', id, method, params, hr', hm⟩
      -- had only the params been at fault, the code would be another one
      rw [parse_of_read hr', ofJson_misgiven hm] at h
      have hcode : (some (-32602) : Option Int) = some (-32600) :=
        congrArg (·.error.map Error.code) (Frame.rejected.inj h)
      exact absurd hcode (by decide)
  · cases h.symm.trans he
    exact ⟨_, _, rfl, hrefused⟩

end Frame

end Checks

/-- A body is taken for a request or a response exactly if it looks like one, and otherwise it is
refused by the rules. -/
theorem frame_grammar (body : Bytes) :
    (∀ q, Frame.parse body = .request q ↔
      ∃ members, Json.read body = .ok (.obj members) ∧ Asks members q) ∧
    (Frame.parse body = .oneWay ↔
      ∃ members, Json.read body = .ok (.obj members) ∧ Responds members) ∧
    ((∃ id e, Frame.parse body = .rejected (.errorReply id e) ∧ Refused body id e) ↔
      ¬ ∃ members, Json.read body = .ok (.obj members) ∧
        ((∃ q, Asks members q) ∨ Responds members)) := by
  refine ⟨fun q => Frame.parse_request_iff, Frame.parse_oneWay_iff, ?_, fun hneither => ?_⟩
  · rintro ⟨id, e, h, -⟩ ⟨members, hr, ⟨q, ha⟩ | ha⟩
    · cases h.symm.trans (Frame.parse_request_iff.2 ⟨members, hr, ha⟩)
    · cases h.symm.trans (Frame.parse_oneWay_iff.2 ⟨members, hr, ha⟩)
  · cases h : Frame.parse body with
    | request q =>
      obtain ⟨members, hr, ha⟩ := Frame.parse_request_iff.1 h
      exact absurd ⟨members, hr, .inl ⟨q, ha⟩⟩ hneither
    | oneWay =>
      obtain ⟨members, hr, ha⟩ := Frame.parse_oneWay_iff.1 h
      exact absurd ⟨members, hr, .inr ha⟩ hneither
    | rejected m =>
      obtain ⟨id, e, rfl, hrefused⟩ := Frame.refused_of_parse h
      exact ⟨id, e, rfl, hrefused⟩

end EditorBridge.Rpc
