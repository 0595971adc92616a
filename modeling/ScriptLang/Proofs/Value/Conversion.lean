import ScriptLang.Proofs.Number.Nearest
import ScriptLang.Value.Host

/-!
# Between hosts and scripts

A value that is taken out comes back as itself. An object that is brought in and taken out again
comes back as what `Returns` says: whole numbers as the numbers nearest to them, and every list as
one that the host can change. An object is turned away for what is foreign inside it, however deep:
a whole number out of range, a mapping or nothing at all.
-/

namespace ScriptLang.Object

/-- An object is another one, or somewhere inside it. -/
inductive Inside (part : Object) : Object → Prop where
  | here : Inside part part
  | sequence {element : Object} {elements : List Object} :
    element ∈ elements → Inside part element → Inside part (.sequence elements)
  | array {element : Object} {elements : List Object} :
    element ∈ elements → Inside part element → Inside part (.array elements)
  | mapping {key : String} {element : Object} {entries : List (String × Object)} :
    (key, element) ∈ entries → Inside part element → Inside part (.mapping entries)

/-- An object without mappings and without nothing in it. -/
inductive Plain : Object → Prop where
  | integer (n : Int) : Plain (.integer n)
  | number (x : Float) : Plain (.number x)
  | string (text : String) : Plain (.string text)
  | boolean (value : Bool) : Plain (.boolean value)
  | function (f : FunctionValue) : Plain (.function f)
  | sequence {xs : List Object} : (∀ x ∈ xs, Plain x) → Plain (.sequence xs)
  | array {xs : List Object} : (∀ x ∈ xs, Plain x) → Plain (.array xs)

/-- Whatever is inside it, an object is no value for itself. -/
def Foreign : Object → Prop
  | .nothing | .mapping _ => True
  | .integer n => Number.rangeEnd ≤ n.natAbs
  | _ => False

/-- An object and what comes back for it: whole numbers as numbers, and all lists as lists that the
host can change. -/
inductive Returns : Object → Object → Prop where
  | integer {n : Int} {x : Float} : Number.ofInt? n = some x → Returns (.integer n) (.number x)
  | number (x : Float) : Returns (.number x) (.number x)
  | string (text : String) : Returns (.string text) (.string text)
  | boolean (value : Bool) : Returns (.boolean value) (.boolean value)
  | function (f : FunctionValue) : Returns (.function f) (.function f)
  | sequence {xs ys : List Object} :
    List.Forall₂ Returns xs ys → Returns (.sequence xs) (.array ys)
  | array {xs ys : List Object} : List.Forall₂ Returns xs ys → Returns (.array xs) (.array ys)

mutual

/-- A value that was made an object is the value again. -/
lemma asValue?_ofValue : ∀ v : Value, (ofValue v).asValue? = some v
  | .number _ | .string _ | .boolean _ | .function _ => rfl
  | .list elements => by
    rw [ofValue, asValue?, asValues?_ofValues elements]
    rfl

/-- Values that were made objects are the values again. -/
lemma asValues?_ofValues : ∀ vs : List Value, asValues? (ofValues vs) = some vs
  | [] => rfl
  | v :: rest => by
    rw [ofValues, asValues?, asValue?_ofValue v, asValues?_ofValues rest]
    rfl

end

/-- A value is taken out with its lists as lists that the host can change. -/
lemma takeOut_ofValue (v : Value) : (ofValue v).takeOut = .ok (exported v) := by
  unfold takeOut
  split
  case h_1 isNothing => cases v <;> cases isNothing
  case h_2 => rw [asValue?_ofValue]

mutual

/-- What a value was taken out as converts to the value. -/
lemma toValue_exported : ∀ v : Value, (exported v).toValue = .ok v
  | .number _ | .string _ | .boolean _ | .function _ => rfl
  | .list elements => by
    rw [exported, toValue, toValues_exportedAll elements]
    rfl

/-- What values were taken out as converts to the values. -/
lemma toValues_exportedAll : ∀ vs : List Value, toValues (exportedAll vs) = .ok vs
  | [] => rfl
  | v :: rest => by
    rw [exportedAll, toValues, toValue_exported v, toValues_exportedAll rest]
    rfl

end

/-- Objects become values one after the other. -/
lemma toValues_cons_eq_ok {x : Object} {rest : List Object} {vs : List Value}
    (h : toValues (x :: rest) = .ok vs) :
    ∃ v ws, x.toValue = .ok v ∧ toValues rest = .ok ws ∧ vs = v :: ws := by
  rw [toValues] at h
  cases first : x.toValue with
  | error e =>
    rw [first] at h
    cases h
  | ok v =>
    cases others : toValues rest with
    | error e =>
      rw [first, others] at h
      cases h
    | ok ws =>
      rw [first, others] at h
      exact ⟨v, ws, rfl, rfl, (Except.ok.inj h).symm⟩

/-- Each object converts if all do. -/
lemma toValue_of_mem {xs : List Object} {vs : List Value} (h : toValues xs = .ok vs) {x : Object}
    (mem : x ∈ xs) : ∃ v, x.toValue = .ok v := by
  induction xs generalizing vs with
  | nil => cases mem
  | cons y rest ih =>
    obtain ⟨v, ws, first, others, -⟩ := toValues_cons_eq_ok h
    rcases List.mem_cons.1 mem with rfl | mem
    · exact ⟨v, first⟩
    · exact ih others mem

/-- If objects do not become values, one of them does not. -/
lemma toValues_eq_error {xs : List Object} {e : ConversionError} (h : toValues xs = .error e) :
    ∃ x ∈ xs, x.toValue = .error e := by
  induction xs with
  | nil => cases h
  | cons x rest ih =>
    rw [toValues] at h
    cases first : x.toValue with
    | error e' =>
      rw [first] at h
      obtain rfl := Except.error.inj h
      exact ⟨x, List.mem_cons_self, first⟩
    | ok v =>
      cases others : toValues rest with
      | error e' =>
        rw [first, others] at h
        obtain rfl := Except.error.inj h
        obtain ⟨y, mem, fails⟩ := ih others
        exact ⟨y, List.mem_cons_of_mem _ mem, fails⟩
      | ok ws =>
        rw [first, others] at h
        cases h

/-- What a list becomes is the list of what its elements become. -/
lemma map_list_eq_ok {result : Except ConversionError (List Value)} {v : Value}
    (h : result.map Value.list = .ok v) : ∃ vs, result = .ok vs ∧ v = .list vs := by
  cases result with
  | error e => cases h
  | ok vs => exact ⟨vs, rfl, (Except.ok.inj h).symm⟩

/-- A list fails as its elements do. -/
lemma map_list_eq_error {result : Except ConversionError (List Value)} {e : ConversionError}
    (h : result.map Value.list = .error e) : result = .error e := by
  cases result with
  | error e' => exact congrArg _ (Except.error.inj h)
  | ok vs => cases h

/-- No object becomes a value that has something foreign inside. -/
lemma Inside.toValue_ne_ok {part x : Object} (h : Inside part x) (foreign : part.Foreign)
    (v : Value) : x.toValue ≠ .ok v := by
  induction h generalizing v with
  | here =>
    intro ok
    cases part with
    | nothing | mapping => cases ok
    | integer n =>
      rw [toValue, (Number.ofInt?_eq_none_iff n).2 foreign] at ok
      cases ok
    | number | string | boolean | function | sequence | array => exact foreign
  | sequence mem _ ih | array mem _ ih =>
    intro ok
    obtain ⟨vs, all, -⟩ := map_list_eq_ok ok
    obtain ⟨w, becomes⟩ := toValue_of_mem all mem
    exact ih w becomes
  | mapping mem _ ih => exact nofun

/-- An object that becomes no value has something foreign inside. -/
lemma foreign_of_toValue_eq_error : ∀ {x : Object} {e : ConversionError}, x.toValue = .error e →
    ∃ part, Inside part x ∧ part.Foreign
  | .nothing, _, _ => ⟨.nothing, .here, trivial⟩
  | .mapping entries, _, _ => ⟨.mapping entries, .here, trivial⟩
  | .integer n, e, h => by
    refine ⟨.integer n, .here, (Number.ofInt?_eq_none_iff n).1 ?_⟩
    cases nearest : Number.ofInt? n with
    | none => rfl
    | some x =>
      rw [toValue, nearest] at h
      cases h
  | .sequence xs, e, h => by
    obtain ⟨x, mem, fails⟩ := toValues_eq_error (map_list_eq_error h)
    obtain ⟨part, inside, foreign⟩ := foreign_of_toValue_eq_error fails
    exact ⟨part, .sequence mem inside, foreign⟩
  | .array xs, e, h => by
    obtain ⟨x, mem, fails⟩ := toValues_eq_error (map_list_eq_error h)
    obtain ⟨part, inside, foreign⟩ := foreign_of_toValue_eq_error fails
    exact ⟨part, .array mem inside, foreign⟩

mutual

/-- What an object became is taken out as what returns for it. -/
lemma returns_of_toValue : ∀ {x : Object} {v : Value}, x.toValue = .ok v → Returns x (exported v)
  | .integer n, v, h => by
    rw [toValue] at h
    cases nearest : Number.ofInt? n with
    | none =>
      rw [nearest] at h
      cases h
    | some x =>
      rw [nearest] at h
      obtain rfl := Except.ok.inj h
      exact .integer nearest
  | .number x, v, h => by
    obtain rfl := Except.ok.inj h
    exact .number x
  | .string text, v, h => by
    obtain rfl := Except.ok.inj h
    exact .string text
  | .boolean value, v, h => by
    obtain rfl := Except.ok.inj h
    exact .boolean value
  | .function f, v, h => by
    obtain rfl := Except.ok.inj h
    exact .function f
  | .sequence xs, v, h => by
    obtain ⟨vs, all, rfl⟩ := map_list_eq_ok h
    exact .sequence (returns_of_toValues all)
  | .array xs, v, h => by
    obtain ⟨vs, all, rfl⟩ := map_list_eq_ok h
    exact .array (returns_of_toValues all)

/-- Objects that convert return, one by one. -/
lemma returns_of_toValues : ∀ {xs : List Object} {vs : List Value}, toValues xs = .ok vs →
    List.Forall₂ Returns xs (exportedAll vs)
  | [], vs, h => by
    obtain rfl := Except.ok.inj h
    exact .nil
  | x :: rest, vs, h => by
    obtain ⟨v, ws, first, others, rfl⟩ := toValues_cons_eq_ok h
    exact .cons (returns_of_toValue first) (returns_of_toValues others)

end

/-- What is inside of a plain object is plain. -/
lemma Inside.plain {part x : Object} (h : Inside part x) (plain : x.Plain) : part.Plain := by
  induction h with
  | here => exact plain
  | sequence mem _ ih =>
    cases plain with
    | sequence each => exact ih (each _ mem)
  | array mem _ ih =>
    cases plain with
    | array each => exact ih (each _ mem)
  | mapping => cases plain

/-- An object is turned away for what is foreign inside it. -/
lemma toValue_fails_iff {x : Object} :
    (∃ e, x.toValue = .error e) ↔ ∃ part, Inside part x ∧ part.Foreign := by
  constructor
  · rintro ⟨e, fails⟩
    exact foreign_of_toValue_eq_error fails
  · rintro ⟨part, inside, foreign⟩
    cases result : x.toValue with
    | error e => exact ⟨e, rfl⟩
    | ok v => exact absurd result (inside.toValue_ne_ok foreign v)

/-- A plain object fails to convert if and only if an integer out of range is inside. -/
lemma toValue_fails_iff_of_plain {x : Object} (plain : x.Plain) :
    (∃ e, x.toValue = .error e) ↔
      ∃ n, Inside (.integer n) x ∧ Number.rangeEnd ≤ n.natAbs := by
  rw [toValue_fails_iff]
  constructor
  · rintro ⟨part, inside, foreign⟩
    cases inside.plain plain with
    | integer n => exact ⟨n, inside, foreign⟩
    | number | string | boolean | function | sequence | array => exact absurd foreign id
  · rintro ⟨n, inside, large⟩
    exact ⟨.integer n, inside, large⟩

/-- Conversions between a host and scripts undo one another. A value that is taken out comes back as
itself. A plain object is turned away exactly for a whole number out of range, and otherwise becomes
a value, for which the object comes back with whole numbers as the nearest numbers and lists as
lists that the host can change. What has a mapping or nothing inside is turned away. -/
theorem conversions_undo_one_another :
    (∀ v : Value, ∃ x, (ofValue v).takeOut = .ok x ∧ x.toValue = .ok v) ∧
    (∀ x : Object, x.Plain →
      ((∃ e, x.toValue = .error e) ↔
        ∃ n, Inside (.integer n) x ∧ Number.rangeEnd ≤ n.natAbs) ∧
      ∀ v, x.toValue = .ok v → (ofValue v).isValue = true ∧
        ∃ y, (ofValue v).takeOut = .ok y ∧ Returns x y) ∧
    (∀ x : Object, Inside .nothing x ∨ (∃ entries, Inside (.mapping entries) x) →
      ∃ e, x.toValue = .error e) ∧
    ∀ n x, Number.ofInt? n = some x → Number.Nearest n x := by
  refine ⟨fun v => ⟨_, takeOut_ofValue v, toValue_exported v⟩, fun x plain => ?_, ?_,
    fun _ _ => Number.nearest_of_ofInt?⟩
  · refine ⟨toValue_fails_iff_of_plain plain, fun v becomes => ⟨?_, ?_⟩⟩
    · rw [isValue, asValue?_ofValue]
      rfl
    · exact ⟨_, takeOut_ofValue v, returns_of_toValue becomes⟩
  · rintro x (inside | ⟨entries, inside⟩)
    · exact toValue_fails_iff.2 ⟨_, inside, trivial⟩
    · exact toValue_fails_iff.2 ⟨_, inside, trivial⟩

/-- A list of a whole number and of a list that cannot change. -/
def sampleObject : Object := .array [.integer 3, .sequence [.boolean true, .string "a"]]

/-- The object is plain. -/
lemma sampleObject_plain : sampleObject.Plain := by
  refine .array ?_
  simp only [List.forall_mem_cons]
  refine ⟨.integer 3, .sequence ?_, nofun⟩
  simp only [List.forall_mem_cons]
  exact ⟨.boolean true, .string "a", nofun⟩

/-- The object converts and returns, and one with nothing inside fails. -/
theorem sampleObject_returns :
    (sampleObject.Plain ∧ ∃ v, sampleObject.toValue = .ok v ∧
      ∃ y, (ofValue v).takeOut = .ok y ∧ Returns sampleObject y) ∧
    Inside .nothing (.array [.nothing]) ∧ ∃ e, (Object.array [.nothing]).toValue = .error e := by
  have ⟨_, plain, foreign, _⟩ := conversions_undo_one_another
  obtain ⟨x, nearest⟩ : ∃ x, Number.ofInt? 3 = some x :=
    Option.ne_none_iff_exists'.1 fun h =>
      absurd ((Number.ofInt?_eq_none_iff 3).1 h) (by decide +kernel)
  have becomes : sampleObject.toValue =
      .ok (.list [.number x, .list [.boolean true, .string "a"]]) := by
    simp only [sampleObject, toValue, toValues, nearest]
    rfl
  have inside : Inside .nothing (.array [.nothing]) := .array List.mem_cons_self .here
  refine ⟨⟨sampleObject_plain, _, becomes, ?_⟩, inside, foreign _ (.inl inside)⟩
  exact ((plain _ sampleObject_plain).2 _ becomes).2

end ScriptLang.Object
