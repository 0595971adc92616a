import Mathlib.Data.List.Nodup
import ScriptLang.Proofs.Environment.Discipline

/-!
# Variables that are visible

What a name shows in an environment, and what the operations do to it. A declaration or an
assignment changes what its own name shows, wherever the variable lives, and nothing else
(`Environment.lookup?_declare`, `Environment.lookup?_assign?`). `Environment.visible` lists each
name that shows something once, with what it shows (`Environment.mem_visible_iff`).
-/

namespace ScriptLang

namespace Bindings
variable {α : Type}

/-- No name comes twice. -/
def Distinct (entries : List (String × α)) : Prop := (entries.map (·.1)).Nodup

namespace Distinct
variable {a b : List (String × α)}

/-- A replacement repeats no name. -/
lemma replace (h : Distinct a) (name : String) (value : α) :
    Distinct (replace name value a) := by
  unfold Distinct at *
  by_cases mem : name ∈ a.map (·.1)
  · rwa [map_replace_of_mem mem]
  · rw [map_replace_of_not_mem mem]
    refine List.nodup_append.2 ⟨h, List.nodup_singleton name, fun x hx y hy => ?_⟩
    obtain rfl := List.mem_singleton.1 hy
    rintro rfl
    exact mem hx

/-- What is found for a name is what is entered for it. -/
lemma find?_eq_some_iff (h : Distinct a) {name : String} {value : α} :
    find? name a = some value ↔ (name, value) ∈ a := by
  induction a with
  | nil => simp [find?]
  | cons entry rest ih =>
    obtain ⟨key, old⟩ := entry
    obtain ⟨fresh, distinct⟩ := List.nodup_cons.1 h
    by_cases same : key = name
    · subst same
      have absent : (key, value) ∉ rest := fun mem =>
        fresh (List.mem_map_of_mem (f := fun entry => entry.1) mem)
      simp [find?, absent, eq_comm]
    · simp [find?, same, Ne.symm same, ih distinct]

/-- Up to their order, entries are told by what their names show. -/
lemma perm (ha : Distinct a) (hb : Distinct b) (h : ∀ name, find? name a = find? name b) :
    a.Perm b := by
  have ha' : a.Nodup := List.Nodup.of_map _ ha
  have hb' : b.Nodup := List.Nodup.of_map _ hb
  refine (List.perm_ext_iff_of_nodup ha' hb').2 fun ⟨name, value⟩ => ?_
  rw [← ha.find?_eq_some_iff, ← hb.find?_eq_some_iff, h]

/-- Two entries of one name are the same. -/
lemma eq_of_mem (h : Distinct a) {x y : String × α} (hx : x ∈ a) (hy : y ∈ a) (e : x.1 = y.1) :
    x = y := by
  obtain ⟨name, value⟩ := x
  obtain ⟨name', value'⟩ := y
  obtain rfl : name = name' := e
  have first := h.find?_eq_some_iff.2 hx
  rw [h.find?_eq_some_iff.2 hy] at first
  cases first
  rfl

end Distinct

/-- The sorted entries are the same entries. -/
lemma sortByName_perm (entries : List (String × α)) : (sortByName entries).Perm entries :=
  List.mergeSort_perm _ _

/-- The sorted entries are in the order of their names. -/
lemma sortByName_sorted (entries : List (String × α)) :
    (sortByName entries).Pairwise fun x y => x.1 ≤ y.1 := by
  have trans (x y z : String × α) : decide (x.1 ≤ y.1) → decide (y.1 ≤ z.1) →
      decide (x.1 ≤ z.1) := by
    simp only [decide_eq_true_eq]
    exact String.le_trans
  have total (x y : String × α) : (decide (x.1 ≤ y.1) || decide (y.1 ≤ x.1)) = true := by
    simp only [Bool.or_eq_true, decide_eq_true_eq]
    exact String.le_total x.1 y.1
  exact (List.pairwise_mergeSort trans total entries).imp of_decide_eq_true

/-- In the order of names, entries are told by what their names show. -/
lemma Distinct.sortByName_eq {a b : List (String × α)} (ha : Distinct a) (hb : Distinct b)
    (h : ∀ name, find? name a = find? name b) : sortByName a = sortByName b := by
  refine List.Perm.eq_of_pairwise (fun x y hx hy le ge => ?_) (sortByName_sorted a)
    (sortByName_sorted b) ?_
  · have hx := (sortByName_perm a).mem_iff.1 hx
    have hy := ((sortByName_perm b).trans (ha.perm hb h).symm).mem_iff.1 hy
    exact ha.eq_of_mem hx hy (String.le_antisymm le ge)
  · exact (sortByName_perm a).trans ((ha.perm hb h).trans (sortByName_perm b).symm)

/-- A name is looked for in the first entries and then in the others. -/
lemma find?_append (name : String) (a b : List (String × α)) :
    find? name (a ++ b) = (find? name a).or (find? name b) := by
  induction a with
  | nil => rfl
  | cons entry rest ih =>
    obtain ⟨key, value⟩ := entry
    by_cases same : key = name
    · simp [find?, same]
    · simp [find?, same, ih]

/-- A name is contained if and only if it is one of the names. -/
lemma contains_iff {b : Bindings α} {name : String} : b.contains name = true ↔ name ∈ b.names := by
  have absent : b.get? name = none ↔ name ∉ b.names := find?_eq_none_iff
  rw [← not_iff_not, ← absent, contains]
  simp

/-- Which names have values is told by the names alone. -/
lemma contains_eq_of_names {β : Type} {b : Bindings α} {b' : Bindings β} (h : b.names = b'.names)
    (name : String) : b.contains name = b'.contains name := by
  rw [Bool.eq_iff_iff, contains_iff, contains_iff, h]

end Bindings

namespace Environment
open Bindings (Distinct find?)

variable {Var Fun : Type}

/-- What a name shows in frames, of which the nearest is the first. -/
def seenIn? (frames : List (Frame Var Fun)) (name : String) : Option Var :=
  (reach frames).findSome? (·.values.get? name)

/-- Without frames a name shows nothing. -/
@[simp] lemma seenIn?_nil (name : String) : seenIn? ([] : List (Frame Var Fun)) name = none := rfl

/-- A name shows its value in the first frame, and behind it only up to a boundary. -/
lemma seenIn?_cons (frame : Frame Var Fun) (rest : List (Frame Var Fun)) (name : String) :
    seenIn? (frame :: rest) name =
      (frame.values.get? name).or (if frame.boundary then none else seenIn? rest name) := by
  unfold seenIn?
  cases boundary : frame.boundary <;> cases own : frame.values.get? name <;>
    simp [reach, boundary, own]

/-- An assignment fails if and only if the name shows nothing. -/
lemma assignFrom?_eq_none_iff {name : String} {value : Var} {frame : Frame Var Fun}
    {rest : List (Frame Var Fun)} :
    assignFrom? name value frame rest = none ↔ seenIn? (frame :: rest) name = none := by
  induction rest generalizing frame with
  | nil =>
    cases own : frame.values.get? name <;>
      simp [assignFrom?, seenIn?_cons, Bindings.contains, own]
  | cons outer rest ih =>
    cases own : frame.values.get? name <;> cases boundary : frame.boundary <;>
      simp [assignFrom?, seenIn?_cons frame, Bindings.contains, own, boundary, ih]

/-- After an assignment the name shows the new value, and others what they did. -/
lemma seenIn?_of_assignFrom? {name : String} {value : Var} {frame : Frame Var Fun}
    {rest : List (Frame Var Fun)} {env : Environment Var Fun}
    (h : assignFrom? name value frame rest = some env) (other : String) :
    seenIn? env.frames other =
      if name = other then some value else seenIn? (frame :: rest) other := by
  induction rest generalizing frame env with
  | nil =>
    unfold assignFrom? at h
    split at h
    case isTrue =>
      cases h
      exact lookup?_bind ⟨frame, []⟩ name other value
    case isFalse => cases h
  | cons outer rest ih =>
    unfold assignFrom? at h
    split at h
    case isTrue =>
      cases h
      exact lookup?_bind ⟨frame, outer :: rest⟩ name other value
    case isFalse absent =>
      split at h
      case isTrue => cases h
      case isFalse open_ =>
        -- The variable lives further out, so this frame hides nothing of its name.
        obtain ⟨inner, found, rfl⟩ := Option.map_eq_some_iff.1 h
        have hidden : frame.values.get? name = none := by
          simpa [Bindings.contains] using absent
        have inner : seenIn? (inner.frame :: inner.enclosing) other = _ := ih found
        rw [frames, seenIn?_cons frame, seenIn?_cons frame, if_neg open_, if_neg open_, inner]
        by_cases same : name = other
        · subst same
          simp [hidden]
        · simp [same]

/-- An assignment fails if and only if the variable is not there. -/
lemma assign?_eq_none_iff {env : Environment Var Fun} {name : String} {value : Var} :
    env.assign? name value = none ↔ env.lookup? name = none :=
  assignFrom?_eq_none_iff

/-- An assigned variable has its value, and every other the one it had. -/
lemma lookup?_assign? {env env' : Environment Var Fun} {name : String} {value : Var}
    (h : env.assign? name value = some env') (other : String) :
    env'.lookup? other = if name = other then some value else env.lookup? other :=
  seenIn?_of_assignFrom? h other

/-- A declared variable has its value, and every other the one it had. -/
lemma lookup?_declare (env : Environment Var Fun) (name other : String) (value : Var) :
    (env.declare name value).lookup? other =
      if name = other then some value else env.lookup? other := by
  unfold declare
  cases h : env.assign? name value with
  | none => exact lookup?_bind env name other value
  | some env' => exact lookup?_assign? h other

/-- A function that is defined shows no variable. -/
lemma lookup?_define (env : Environment Var Fun) (name other : String) (function : Fun) :
    (env.define name function).lookup? other = env.lookup? other := by
  have after : (env.define name function).lookup? other = _ :=
    seenIn?_cons (env.define name function).frame env.enclosing other
  have before : env.lookup? other = _ := seenIn?_cons env.frame env.enclosing other
  rw [after, before]
  rfl

/-- A name is found in the first of the frames that has it. -/
lemma find?_flatMap (frames : List (Frame Var Fun)) (name : String) :
    find? name (frames.flatMap (·.values.entries)) = frames.findSome? (·.values.get? name) := by
  induction frames with
  | nil => rfl
  | cons frame rest ih =>
    rw [List.flatMap_cons, Bindings.find?_append, ih, List.findSome?_cons]
    show (frame.values.get? name).or _ = _
    cases frame.values.get? name <;> rfl

/-- Entries of other names do not matter for a name. -/
lemma find?_filter_ne {entries : List (String × Var)} {name other : String} (h : name ≠ other) :
    find? other (entries.filter (·.1 ≠ name)) = find? other entries := by
  induction entries with
  | nil => rfl
  | cons entry rest ih =>
    obtain ⟨key, value⟩ := entry
    by_cases same : key = name
    · subst same
      simpa [find?, h] using ih
    · simp only [ne_eq, decide_not] at ih
      simp [find?, same, ih]

/-- The first entries of each name show the same values. -/
lemma find?_firstOfName (entries : List (String × Var)) (name : String) :
    find? name (firstOfName entries) = find? name entries := by
  induction entries with
  | nil => rfl
  | cons entry rest ih =>
    obtain ⟨key, value⟩ := entry
    by_cases same : key = name
    · simp [firstOfName, find?, same]
    · simp only [firstOfName, find?, if_neg same, find?_filter_ne same, ih]

/-- The first entries of each name repeat no name. -/
lemma distinct_firstOfName (entries : List (String × Var)) : Distinct (firstOfName entries) := by
  induction entries with
  | nil => exact List.nodup_nil
  | cons entry rest ih =>
    obtain ⟨key, value⟩ := entry
    refine List.nodup_cons.2 ⟨?_, ih.sublist (List.filter_sublist.map _)⟩
    simp

/-- Lists of variables agree if all names show the same. -/
lemma visible_eq {env : Environment Var Fun} {entries : List (String × Var)} (h : Distinct entries)
    (agree : ∀ name, find? name entries = env.lookup? name) :
    env.visible = Bindings.sortByName entries := by
  refine (distinct_firstOfName _).sortByName_eq h fun name => ?_
  rw [find?_firstOfName, find?_flatMap, agree]
  rfl

/-- The list of variables holds what names show, and nothing else. -/
lemma mem_visible_iff {env : Environment Var Fun} {name : String} {value : Var} :
    (name, value) ∈ env.visible ↔ env.lookup? name = some value := by
  rw [visible, (Bindings.sortByName_perm _).mem_iff,
    ← (distinct_firstOfName _).find?_eq_some_iff, find?_firstOfName, find?_flatMap]
  rfl

end Environment

end ScriptLang
