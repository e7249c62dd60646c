import EditorBridge.Proofs.Broker.Deadline
import EditorBridge.Proofs.Tool
/-!
# How long a command waits

The tool that sends any command lets its caller say how long to wait. Its schema
takes a whole number in bounds, however it is written, and the tool then counts
only those that are written as integers: with any other the command waits as if
nothing had been said.
-/

namespace EditorBridge

/-! ## Whole numbers in bounds -/

namespace Binary64

theorem toQuotient_den_pos (x : Binary64) : 0 < x.toQuotient.2 := by
  simp only [toQuotient]
  split
  · exact Nat.one_pos
  · exact Nat.pow_pos Nat.two_pos

/-- A number above zero has no sign. -/
theorem negative_eq_false {x : Binary64} (h : 0 < x.toQuotient.1) : x.negative = false := by
  rw [← Bool.not_eq_true]
  intro hneg
  have hsign : (-(x.significand : Int)) ≤ 0 := by omega
  simp only [toQuotient, hneg, if_true] at h
  split at h
  · exact absurd h (Int.not_lt.2 (Int.mul_nonpos_of_nonpos_of_nonneg hsign (Int.natCast_nonneg _)))
  · exact absurd h (Int.not_lt.2 hsign)

end Binary64

namespace Tool

namespace Schema

variable {x : Json}

/-- A number of the type `integer` within bounds above zero is a natural number within them. -/
theorem natural?_of_bounds {low high : Nat} (hlow : 0 < low) (htype : hasType x "integer" = true)
    (hmin : less x (.int low) = false) (hmax : less (.int high) x = false) :
    ∃ n, natural? x = some n ∧ low ≤ n ∧ n ≤ high := by
  cases x with
  | int n =>
    simp [less, quotient?] at hmin hmax
    exact ⟨n.toNat, by simp [natural?]; omega, by omega, by omega⟩
  | float x =>
    have hwhole : x.isIntegral = true := by simpa [hasType] using htype
    obtain ⟨n, hn⟩ : (x.toQuotient.2 : Int) ∣ x.toQuotient.1 :=
      Int.dvd_of_emod_eq_zero (by simpa [Binary64.isIntegral] using hwhole)
    have hden : (0 : Int) < x.toQuotient.2 := Int.natCast_pos.2 x.toQuotient_den_pos
    simp only [less, quotient?, hn, decide_eq_false_iff_not, Int.not_lt, Int.natCast_one,
      Int.mul_one, Int.mul_comm _ (x.toQuotient.2 : Int)] at hmin hmax
    have hln : (low : Int) ≤ n := Int.le_of_mul_le_mul_left hmin hden
    have hnh : n ≤ high := Int.le_of_mul_le_mul_left hmax hden
    have hsign : x.negative = false := by
      refine x.negative_eq_false (hn ▸ Int.mul_pos hden ?_)
      omega
    have hvalue : x.toQuotient.1 / x.toQuotient.2 = n := by
      rw [hn, Int.mul_ediv_cancel_left _ (Int.ne_of_gt hden)]
    exact ⟨n.toNat, by simp [natural?, hwhole, hsign, hvalue], by omega, by omega⟩
  | _ => simp [hasType] at htype

/-- A member of what fits fits its own schema. -/
theorem fits_member {properties : List (String × Json)} {name : String} {schema y : Json}
    (h : memberViolations properties x = []) (hname : (name, schema) ∈ properties)
    (hy : x.get? name = some y) : violations schema y = [] := by
  induction properties with
  | nil => cases hname
  | cons property properties ih =>
    simp only [memberViolations, List.append_eq_nil_iff] at h
    rcases List.mem_cons.1 hname with rfl | hname
    · simpa [hy] using h.1
    · exact ih h.2 hname

end Schema

/-- How long a caller wants a command to wait: as long as the arguments say, if they say so. -/
def wantedWait (members : Json.Members) (s : Services) : Nanos :=
  match (Json.Members.get? "timeoutMs" members).bind Schema.natural? with
  | some ms => .ofMillis ms
  | none => s.commandTimeout

variable {members : Json.Members} {command target : String} {s : Services}

/-- A timeout that fits is a number of milliseconds within the bounds. -/
theorem timeout_of_fits (h : Schema.violations editorCommand.inputSchema (.obj members) = [])
    {j : Json} (hj : Json.Members.get? "timeoutMs" members = some j) :
    ∃ ms, Schema.natural? j = some ms ∧ 1 ≤ ms ∧ ms ≤ maxTimeoutMillis := by
  obtain ⟨-, hmembers, -⟩ := fits_objectSchema h
  have hfits : Schema.violations (.obj [("maximum", .int maxTimeoutMillis), ("minimum", .int 1),
      ("type", .str "integer")]) j = [] :=
    Schema.fits_member hmembers (by decide) hj
  simp [Schema.violations, Schema.allViolations, Schema.keywordViolations,
    Schema.typeViolations] at hfits
  exact Schema.natural?_of_bounds Nat.one_pos hfits.2.2 hfits.2.1 hfits.1

/-- The order that members make of a call. -/
def editorOrder (members : Json.Members) (command target : String) (s : Services) :
    Broker.Order where
  session := target
  command := command
  args := (Json.Members.get? "args" members).getD (.obj [])
  timeout := ((Json.Members.get? "timeoutMs" members).bind askedTimeout?).getD s.commandTimeout

theorem execute_editorCommand (h : Schema.violations editorCommand.inputSchema (.obj members) = [])
    (hcommand : Json.Members.get? "command" members = some (.str command))
    (hblank : Text.blank command = false) (hlatest : s.snapshots.latest = some target)
    (c : Context) :
    Registry.standard.execute editorCommand.name (.obj members) c s =
      (.command (editorOrder members command target s), s) := by
  have hfind : Registry.standard.find? editorCommand.name = some editorCommand := rfl
  have hrun : Registry.standard.execute editorCommand.name (.obj members) c s =
      (Registry.contain (runAnyCommand c (.obj members) s).1,
        (runAnyCommand c (.obj members) s).2) := execute_of_fits hfind (by exact h) c s
  rw [hrun]
  simp [runAnyCommand, Json.get?, hcommand, Json.str?, hblank, sendCommand, hlatest,
    Registry.contain, editorOrder]

/-- Only a timeout that is written as an integer is taken up. -/
theorem limit_editorOrder (h : Schema.violations editorCommand.inputSchema (.obj members) = [])
    (command target : String) (s : Services) (default : Nanos) :
    (∃ n, Json.Members.get? "timeoutMs" members = some (.int n)) ∧
      (editorOrder members command target s).limit default = wantedWait members s ∨
    (¬ ∃ n, Json.Members.get? "timeoutMs" members = some (.int n)) ∧
      (editorOrder members command target s).limit default =
        if s.commandTimeout = 0 then default else s.commandTimeout := by
  have htimeout : (editorOrder members command target s).timeout =
    ((Json.Members.get? "timeoutMs" members).bind askedTimeout?).getD s.commandTimeout := rfl
  rw [Broker.Order.limit, htimeout]
  cases hj : Json.Members.get? "timeoutMs" members with
  | none => exact .inr ⟨by simp, rfl⟩
  | some j =>
    obtain ⟨ms, hms, hpos, hmax⟩ := timeout_of_fits h hj
    cases j with
    | int n =>
      have hn : 0 ≤ n ∧ n.toNat = ms := by simpa [Schema.natural?] using hms
      have hasked : askedTimeout? (.int n) = some (.ofMillis ms) := by
        simp [askedTimeout?, hn, Nat.min_eq_left hmax]
      have hne : Nanos.ofMillis ms ≠ 0 := Nat.mul_ne_zero (Nat.ne_of_gt hpos) (by decide)
      refine .inl ⟨⟨n, rfl⟩, ?_⟩
      simp [wantedWait, hj, hms, hasked, hne]
    | _ => exact .inr ⟨by simp, rfl⟩

/-- What a call of the tool that sends any command orders, for arguments that fit its schema: the
command as it is given, for the editor with the latest snapshot. It waits as long as the caller
wants exactly if the timeout is written as an integer, or what is wanted is no other time than
without one. -/
theorem editorCommand_waits_iff (members : Json.Members) (command target : String) (c : Context)
    (s : Services) (default : Nanos) :
    Schema.violations editorCommand.inputSchema (.obj members) = [] →
    Json.Members.get? "command" members = some (.str command) → Text.blank command = false →
    s.snapshots.latest = some target → Text.blank target = false →
    ∃ o : Broker.Order,
      Registry.standard.execute editorCommand.name (.obj members) c s = (.command o, s) ∧
      o.session = target ∧
      (∀ (b : Broker) (call : CallId) (wall : Timestamp), ∃ id,
        (b.start call o true wall).1 = .ok (.notification Broker.noticeMethod (some (.obj
          [("args", (Json.Members.get? "args" members).getD (.obj [])), ("command", .str command),
            ("commandId", .str id)])))) ∧
      (∀ j, Json.Members.get? "timeoutMs" members = some j →
        ∃ ms, Schema.natural? j = some ms ∧ 1 ≤ ms ∧ ms ≤ maxTimeoutMillis) ∧
      (o.Waits default (wantedWait members s) ↔
        (∃ n, Json.Members.get? "timeoutMs" members = some (.int n)) ∨
        wantedWait members s = if s.commandTimeout = 0 then default else s.commandTimeout) := by
  intro h hcommand hblank hlatest htarget
  refine ⟨editorOrder members command target s, execute_editorCommand h hcommand hblank hlatest c,
    rfl, fun b call wall => ?_, fun j => timeout_of_fits h, ?_⟩
  · exact ⟨Broker.commandId wall (b.sequence + 1), by
      simp [Broker.start, editorOrder, htarget, hblank, Broker.notification]⟩
  · rw [Broker.waits_iff htarget hblank]
    rcases limit_editorOrder h command target s default with ⟨hint, hlimit⟩ | ⟨hint, hlimit⟩
    · rw [hlimit]
      exact iff_of_true rfl (.inl hint)
    · rw [hlimit]
      exact ⟨.inr, fun hw => hw.resolve_left hint⟩

/-- An editor is connected, and commands wait a second unless something else is said. -/
def sampleServices : Services where
  snapshots := ((Snapshot.Store.empty (.ofSecs 30)).upsert "s1" ⟨.null, .null, .null⟩ ⟨0, 0⟩).2
  broker := .empty (.ofSecs 1)
  now := ⟨0, 0⟩
  commandTimeout := .ofSecs 1

/-- Arguments that ask for two seconds, with the number of milliseconds written in some way. -/
def twoSeconds (written : Json) : Json.Members :=
  [("command", .str "reimport"), ("timeoutMs", written)]

theorem editorCommand_waits_iff_integer :
    Schema.violations editorCommand.inputSchema (.obj (twoSeconds (.int 2000))) = [] ∧
    ∃ o : Broker.Order,
      Registry.standard.execute editorCommand.name (.obj (twoSeconds (.int 2000))) ⟨none, false⟩
        sampleServices = (.command o, sampleServices) ∧
      o.Waits (.ofSecs 1) (.ofSecs 2) := by
  have hfits : Schema.violations editorCommand.inputSchema (.obj (twoSeconds (.int 2000))) = [] :=
    by decide +kernel
  obtain ⟨o, hrun, -, -, -, hwaits⟩ := editorCommand_waits_iff (twoSeconds (.int 2000)) "reimport"
    "s1" ⟨none, false⟩ sampleServices (.ofSecs 1) hfits rfl (by decide) rfl (by decide)
  exact ⟨hfits, o, hrun, hwaits.2 (.inl ⟨2000, rfl⟩)⟩

/-- The number 2000.0. -/
def twoThousand : Json := .float ((Binary64.ofDecimal false 20000 (-1)).getD (.zero false))

/-- Two seconds that are not written as an integer fit the schema and are not waited for. -/
theorem editorCommand_decimal_ignored :
    Schema.violations editorCommand.inputSchema (.obj (twoSeconds twoThousand)) = [] ∧
    wantedWait (twoSeconds twoThousand) sampleServices = .ofSecs 2 ∧
    ∃ o : Broker.Order,
      Registry.standard.execute editorCommand.name (.obj (twoSeconds twoThousand)) ⟨none, false⟩
        sampleServices = (.command o, sampleServices) ∧
      (Broker.run (.empty (.ofSecs 1)) (Broker.patience o (.ofSecs 1))).record.results 0 =
        [(.ofSecs 1, .error (.ackTimeout (.ofSecs 1)))] ∧
      ¬ o.Waits (.ofSecs 1) (.ofSecs 2) := by
  have hfits : Schema.violations editorCommand.inputSchema (.obj (twoSeconds twoThousand)) = [] :=
    by decide +kernel
  have hsession : Text.blank "s1" = false := by decide
  have hcommand : Text.blank "reimport" = false := by decide
  refine ⟨hfits, by decide +kernel,
    editorOrder (twoSeconds twoThousand) "reimport" "s1" sampleServices,
    execute_editorCommand hfits rfl hcommand rfl _, ?_, ?_⟩
  · rw [Broker.record_patience _ hsession hcommand]
    rfl
  · rw [Broker.waits_iff hsession hcommand]
    decide

end Tool

end EditorBridge
