import EditorBridge.Proofs.Tool
import EditorBridge.Tool.Probe
import EditorBridge.Tool.Registration
import Mathlib.Data.List.Induction
/-!
# Who has a name

A registry holds its tools in the order of their names, and under a name the
first valid tool that was offered with it: `find?_ofOffers`. An offer that comes
too late, or is not valid, is refused and leaves the registry as it was. So the
list of tools, the check of arguments and the run of a call are all about one
and the same tool, whatever was offered in between.
-/

namespace EditorBridge.Tool

namespace Registry

variable {d : Schema.Dialect} {r : Registry} {t : Tool} {name : String}

/-! ## Tools in the order of their names -/

/-- The names are in strict order. -/
def Ordered (r : Registry) : Prop := r.Pairwise fun t u => t.name < u.name

theorem find?_cons (u : Tool) (r : Registry) (name : String) :
    find? (u :: r) name = if u.name = name then some u else find? r name := by
  by_cases h : u.name = name <;> simp [find?, h]

theorem find?_eq_none : r.find? name = none ↔ ∀ u ∈ r, u.name ≠ name := by
  simp [find?, List.find?_eq_none]

/-- A tool with a new name has that name from then on, and the others keep theirs. -/
theorem find?_insert (h : r.find? t.name = none) :
    (r.insert t).find? name = if t.name = name then some t else r.find? name := by
  induction r with
  | nil => exact find?_cons t [] name
  | cons u rest ih =>
    unfold insert
    split
    · exact find?_cons t _ name
    · rw [find?_cons] at h
      split at h
      · cases h
      · next hne =>
        rw [find?_cons, find?_cons, ih h]
        by_cases ht : t.name = name
        · rw [← ht, if_neg hne, if_pos rfl, if_pos rfl]
        · rw [if_neg ht, if_neg ht]

theorem ordered_insert (hr : r.Ordered) (h : r.find? t.name = none) : (r.insert t).Ordered := by
  induction r with
  | nil => exact List.pairwise_singleton ..
  | cons u rest ih =>
    obtain ⟨hu, hrest⟩ := List.pairwise_cons.1 hr
    unfold insert
    split
    · next hlt =>
      refine List.pairwise_cons.2 ⟨fun v hv => ?_, hr⟩
      rcases List.mem_cons.1 hv with rfl | hv
      · exact hlt
      · exact String.lt_trans hlt (hu v hv)
    · next hnlt =>
      have hne := find?_eq_none.1 h
      refine List.pairwise_cons.2 ⟨fun v hv => ?_, ih hrest ?_⟩
      · rcases mem_insert hv with rfl | hv
        · refine Decidable.byContradiction fun hnlt' => hne u List.mem_cons_self ?_
          exact String.le_antisymm (String.not_lt.1 hnlt) (String.not_lt.1 hnlt')
        · exact hu v hv
      · exact find?_eq_none.2 fun v hv => hne v (List.mem_cons_of_mem _ hv)

/-- Where the names are in order, one tool at most has a name. -/
theorem filter_name (hr : r.Ordered) (name : String) :
    r.filter (·.name = name) = (r.find? name).toList := by
  induction r with
  | nil => rfl
  | cons u rest ih =>
    obtain ⟨hu, hrest⟩ := List.pairwise_cons.1 hr
    rw [find?_cons]
    split
    · next h =>
      have others : rest.filter (·.name = name) = [] := by
        refine List.filter_eq_nil_iff.2 fun v hv hname => ?_
        have hname : v.name = name := by simpa using hname
        exact String.lt_irrefl _ (h.trans hname.symm ▸ hu v hv)
      simp [h, others]
    · next h => simpa [h] using ih hrest

/-- Tools that are sorted by name come out in the same order, wherever they stood before. -/
theorem mergeSort_perm (hr : r.Ordered) {tools : List Tool} (h : tools.Perm r) :
    tools.mergeSort (fun t u => t.name ≤ u.name) = r := by
  have hle : r.Pairwise fun t u => decide (t.name ≤ u.name) = true :=
    hr.imp fun hlt => decide_eq_true (String.not_lt.1 (String.lt_asymm hlt))
  have hsorted : (tools.mergeSort fun t u => t.name ≤ u.name).Pairwise
      fun t u => decide (t.name ≤ u.name) = true := by
    refine List.pairwise_mergeSort (fun t u v htu huv => ?_) (fun t u => ?_) tools
    · exact decide_eq_true (String.le_trans (of_decide_eq_true htu) (of_decide_eq_true huv))
    · simpa using String.le_total t.name u.name
  have hperm := (List.mergeSort_perm tools fun t u => decide (t.name ≤ u.name)).trans h
  refine hperm.eq_of_pairwise (fun t u ht hu htu hut => ?_) hsorted hle
  have hname := String.le_antisymm (of_decide_eq_true htu) (of_decide_eq_true hut)
  have htools := filter_name hr u.name
  have hmem : ∀ v ∈ r, v.name = u.name → v ∈ (r.find? u.name).toList := fun v hv hn => by
    rw [← htools]
    exact List.mem_filter.2 ⟨hv, by simpa using hn⟩
  have ht := Option.mem_toList.1 (hmem t (hperm.mem_iff.1 ht) hname)
  have hu := Option.mem_toList.1 (hmem u hu rfl)
  exact Option.some.inj (ht.symm.trans hu)

/-! ## Offers -/

/-- An offer is taken if the tool is valid and its name free, and refused otherwise. -/
theorem offer_cases (d : Schema.Dialect) (r : Registry) (t : Tool) :
    (t.valid d = true ∧ r.find? t.name = none) ∧ r.offer d t = (.ok (), r.insert t) ∨
    ¬ (t.valid d = true ∧ r.find? t.name = none) ∧
      ∃ detail, r.offer d t = (.error (.validation detail), r) := by
  obtain ⟨name, description, schema, run, reject⟩ := t
  unfold offer registerIn valid
  by_cases hname : name = ""
  · subst hname
    exact .inr ⟨by simp, _, rfl⟩
  · cases schema with
    | obj members =>
      cases hfault : d.fault? (.obj members) with
      | some fault => exact .inr ⟨by simp, by simp [hfault]⟩
      | none =>
        cases hfind : r.find? name with
        | some u => exact .inr ⟨by simp, by simp [hfault]⟩
        | none => exact .inl ⟨by simp [hname, Json.isObject], by simp [hfault]⟩
    | _ => exact .inr ⟨by simp [Json.isObject], by simp⟩

theorem ofOffers_concat (d : Schema.Dialect) (offers : List Tool) (t : Tool) :
    ofOffers d (offers ++ [t]) = ((ofOffers d offers).offer d t).2 := by
  simp [ofOffers, List.foldl_append]

theorem firstValid?_concat (d : Schema.Dialect) (offers : List Tool) (t : Tool) (name : String) :
    firstValid? d (offers ++ [t]) name =
      (firstValid? d offers name).or (if t.name = name ∧ t.valid d = true then some t else none) := by
  simp only [firstValid?, List.find?_append]
  by_cases h : t.name = name ∧ t.valid d = true <;> simp [h]

/-- After offers the tools are in order, and under a name is the first valid one offered with it. -/
theorem ofOffers_spec (d : Schema.Dialect) (offers : List Tool) :
    (ofOffers d offers).Ordered ∧ ∀ name, (ofOffers d offers).find? name = firstValid? d offers name := by
  induction offers using List.reverseRecOn with
  | nil => exact ⟨.nil, fun _ => rfl⟩
  | append_singleton offers t ih =>
    obtain ⟨ordered, found⟩ := ih
    rw [ofOffers_concat]
    rcases offer_cases d (ofOffers d offers) t with ⟨⟨hvalid, hfree⟩, ho⟩ | ⟨hn, detail, ho⟩ <;> rw [ho]
    · refine ⟨ordered_insert ordered hfree, fun name => ?_⟩
      rw [firstValid?_concat, find?_insert hfree, ← found]
      by_cases hname : t.name = name
      · rw [← hname, hfree]
        simp [hvalid]
      · simp [hname]
    · refine ⟨ordered, fun name => ?_⟩
      rw [firstValid?_concat, ← found]
      by_cases hname : t.name = name ∧ t.valid d = true
      · obtain ⟨rfl, hvalid⟩ := hname
        obtain ⟨u, hu⟩ := Option.ne_none_iff_exists'.1 fun hfree => hn ⟨hvalid, hfree⟩
        simp [hu]
      · simp [hname]

theorem find?_ofOffers (d : Schema.Dialect) (offers : List Tool) (name : String) :
    (ofOffers d offers).find? name = firstValid? d offers name :=
  (ofOffers_spec d offers).2 name

/-- Who gets a name does not depend on what the tools do. -/
theorem firstValid?_doing (d : Schema.Dialect) (offers : List Tool)
    (run : Tool → Context → Json → Services → Outcome × Services) (name : String) :
    firstValid? d (offers.map fun t => t.doing (run t)) name =
      (firstValid? d offers name).map fun t => t.doing (run t) :=
  List.find?_map

end Registry

/-! ## The list of tools -/

theorem entryName?_info (t : Tool) : entryName? t.info = some t.name := rfl

theorem map_entryName?_list (r : Registry) :
    r.list.map entryName? = (r.map (·.name)).map some := by
  simp [Registry.list, Function.comp_def, entryName?_info]

theorem filter_list {r : Registry} (hr : r.Ordered) (name : String) :
    r.list.filter (fun entry => entryName? entry = some name) =
      ((r.find? name).map Tool.info).toList := by
  rw [Registry.list, List.filter_map, Option.toList_map, ← Registry.filter_name hr]
  simp [Function.comp_def, entryName?_info]

/-- Whatever tools are offered, under a name is the first valid one of that name, and every other
offer is refused and changes nothing. The list has its entry and no other under that name, and the
same list comes out whatever order a table has the tools in. A call runs it on arguments that fit
its schema, `null` standing for none, or has it reject them; what the tools do when they are run is
nothing to a call that runs none. -/
theorem first_valid_wins (d : Schema.Dialect) (offers : List Tool) :
    let r := Registry.ofOffers d offers
    (∃ names : List String, r.list.map entryName? = names.map some ∧ names.Pairwise (· < ·)) ∧
    (∀ name, r.list.filter (fun entry => entryName? entry = some name) =
      ((firstValid? d offers name).map Tool.info).toList) ∧
    (∀ tools : List Tool, tools.Perm r →
      (tools.mergeSort fun t u => t.name ≤ u.name).map Tool.info = r.list) ∧
    (∀ before (t : Tool) after, offers = before ++ t :: after →
      let now := Registry.ofOffers d before
      let wins := t.valid d = true ∧ firstValid? d before t.name = none
      (wins → (now.offer d t).1 = .ok ()) ∧
      (¬ wins → ∃ detail, now.offer d t = (.error (.validation detail), now))) ∧
    ∀ name args c s,
      let given := Registry.arguments args
      let answer := r.executeIn d name args c s
      (firstValid? d offers name = none → answer = (.error (.notFound name), s)) ∧
      (∀ t, firstValid? d offers name = some t → d.violations t.inputSchema given = [] →
        answer = (Registry.contain (t.run c given s).1, (t.run c given s).2)) ∧
      (∀ t, firstValid? d offers name = some t → d.violations t.inputSchema given ≠ [] →
        answer = (t.reject ("Invalid arguments for " ++ name ++ ": " ++
          "; ".intercalate (d.violations t.inputSchema given)) c, s)) ∧
      ∀ run : Tool → Context → Json → Services → Outcome × Services,
        (∀ t, firstValid? d offers name = some t → d.violations t.inputSchema given ≠ []) →
        (Registry.ofOffers d (offers.map fun t => t.doing (run t))).executeIn d name args c s =
          answer := by
  intro r
  obtain ⟨ordered, found⟩ : r.Ordered ∧ ∀ name, r.find? name = firstValid? d offers name :=
    Registry.ofOffers_spec d offers
  refine ⟨⟨r.map (·.name), map_entryName?_list r, by rwa [List.pairwise_map]⟩, ?_, ?_, ?_, ?_⟩
  · intro name
    rw [filter_list ordered, found]
  · intro tools hperm
    rw [Registry.mergeSort_perm ordered hperm]
    rfl
  · rintro before t after -
    intro now
    rw [← Registry.find?_ofOffers]
    rcases Registry.offer_cases d now t with ⟨hw, ho⟩ | ⟨hn, detail, ho⟩
    · exact ⟨fun _ => by rw [ho], fun hn => absurd hw hn⟩
    · exact ⟨fun hw => absurd hw hn, fun _ => ⟨detail, ho⟩⟩
  · intro name args c s given
    refine ⟨fun h => ?_, fun t h hv => ?_, fun t h hv => ?_, fun run hv => ?_⟩
    · exact Registry.executeIn_of_none ((found name).trans h)
    · exact Registry.executeIn_of_fits ((found name).trans h) hv
    · exact Registry.executeIn_of_misfit ((found name).trans h) hv
    · have moved := Registry.find?_ofOffers d (offers.map fun t => t.doing (run t)) name
      rw [Registry.firstValid?_doing] at moved
      cases h : firstValid? d offers name with
      | none =>
        rw [Registry.executeIn_of_none ((found name).trans h)]
        exact Registry.executeIn_of_none (by rw [moved, h]; rfl)
      | some t =>
        rw [Registry.executeIn_of_misfit ((found name).trans h) (hv t h)]
        exact Registry.executeIn_of_misfit (t := t.doing (run t)) (by rw [moved, h]; rfl) (hv t h)

/-- The registry of the bridge is what its own tools make of one. -/
example : Registry.standard = .ofOffers Schema.keywordDialect builtin := by rfl

/-- The first offer that is valid. -/
def sampleEcho : Tool := ofProbe "echo" "shows its arguments" (.obj [("type", .str "object")]) .echo

/-- Offers under one name: one without an object for a schema, a valid one, and one too late. -/
def sampleOffers : List Tool :=
  [ofProbe "echo" "has no schema" (.arr []) (.panic none), sampleEcho,
    ofProbe "echo" "comes too late" (.obj []) (.panic none)]

/-- Services of a bridge to which nothing has been said. -/
def sampleIdle : Services := ⟨.empty 0, .empty 0, ⟨0, 0⟩, 0⟩

theorem first_valid_wins_echo :
    let r := Registry.ofOffers Schema.keywordDialect sampleOffers
    r.list = [sampleEcho.info] ∧
    r.execute "echo" .null ⟨none, false⟩ sampleIdle =
      (.result (.success (.object [("params", .obj []), ("ready", .null)])), sampleIdle) ∧
    r.execute "echo" (.int 3) ⟨none, false⟩ sampleIdle =
      (.error (.invalidParams "Invalid arguments for echo: 3 is not of type \"object\""),
        sampleIdle) := by
  intro r
  have wins : firstValid? Schema.keywordDialect sampleOffers "echo" = some sampleEcho := by rfl
  obtain ⟨-, -, -, -, calls⟩ := first_valid_wins Schema.keywordDialect sampleOffers
  refine ⟨by rfl, ?_, ?_⟩
  · exact (calls "echo" .null ⟨none, false⟩ sampleIdle).2.1 sampleEcho wins (by rfl)
  · exact (calls "echo" (.int 3) ⟨none, false⟩ sampleIdle).2.2.1 sampleEcho wins (by decide)

end EditorBridge.Tool
