import ComponentAttrs.Proofs.Document.Written

/-!
Values with a JSON form of their own. What has none, such as a date, is an error where the writer is
strict and a text where it is lenient; for everything else the two write the same.

* `HasForm`: no part of the value is without a form;
* `curbs_write`: with a form both writers agree, in failure too; without one the strict one fails.
-/
namespace ComponentAttrs.Json

open ComponentAttrs.Document

/-- No part is bytes, a date, a time or a set. The keys of a mapping do not count. -/
inductive HasForm : Value → Prop
  | null : HasForm .null
  | bool (b : Bool) : HasForm (.bool b)
  | int (i : Int) : HasForm (.int i)
  | float (x : Float) : HasForm (.float x)
  | text (s : String) : HasForm (.text s)
  | list (o : Origin) {items : List Value} (all : ∀ v ∈ items, HasForm v) : HasForm (.list o items)
  | pair {a b : Value} (first : HasForm a) (second : HasForm b) : HasForm (.pair a b)
  | map (o : Origin) {entries : Entries} (all : ∀ e ∈ entries, HasForm e.2) :
    HasForm (.map o entries)

theorem hasForm_list_iff {o : Origin} {items : List Value} :
    HasForm (.list o items) ↔ ∀ v ∈ items, HasForm v :=
  ⟨fun h => by cases h; assumption, .list o⟩

theorem hasForm_pair_iff {a b : Value} : HasForm (.pair a b) ↔ HasForm a ∧ HasForm b :=
  ⟨fun h => by cases h; constructor <;> assumption, fun h => .pair h.1 h.2⟩

theorem hasForm_map_iff {o : Origin} {entries : Entries} :
    HasForm (.map o entries) ↔ ∀ e ∈ entries, HasForm e.2 :=
  ⟨fun h => by cases h; assumption, .map o⟩

theorem hasForm_record_iff {fields : List (String × Value)} :
    HasForm (.record fields) ↔ ∀ f ∈ fields, HasForm f.2 := by
  rw [Value.record, hasForm_map_iff, List.forall_mem_map]

theorem hasForm_of_plain {height : Nat} {v : Value} (h : Plain height v) : HasForm v := by
  induction h with
  | null => exact .null
  | bool => exact .bool _
  | int => exact .int _
  | float => exact .float _
  | text => exact .text _
  | items _ ih => exact .list none ih
  | record _ ih => exact hasForm_record_iff.mpr ih

/-! ## A strict result and a lenient one -/

/-- They are the same for something that has a form. For something that has none there is no strict
result; either the form is what is missing, or the lenient one fails as well, in the same way. -/
structure Curbs {α : Type} (form : Prop) (strict lenient : Except Failure α) : Prop where
  agree : form → strict = lenient
  fail : ¬ form → ∃ e, strict = .error e ∧ (e = .noForm ∨ lenient = .error e)

section

variable {α β : Type} {p q : Prop} {x y : Except Failure α}

theorem Curbs.same (h : p) (x : Except Failure α) : Curbs p x x :=
  ⟨fun _ => rfl, fun hno => absurd h hno⟩

theorem Curbs.error (e : Failure) : Curbs p (.error e : Except Failure α) (.error e) :=
  ⟨fun _ => rfl, fun _ => ⟨e, rfl, .inr rfl⟩⟩

theorem Curbs.congr (h : Curbs p x y) (hpq : p ↔ q) : Curbs q x y := by
  rwa [← propext hpq]

/-- One part written after another. -/
theorem Curbs.bind {f g : α → Except Failure β} (h : Curbs p x y)
    (hnext : ∀ a, Curbs q (f a) (g a)) : Curbs (p ∧ q) (x >>= f) (y >>= g) := by
  by_cases hp : p
  · obtain rfl := h.agree hp
    cases x with
    | error e => exact .error e
    | ok a => exact (hnext a).congr (and_iff_right hp).symm
  · obtain ⟨e, rfl, he⟩ := h.fail hp
    refine ⟨fun hboth => absurd hboth.1 hp, fun _ => ⟨e, rfl, he.imp_right ?_⟩⟩
    rintro rfl
    rfl

theorem Curbs.form_and_eq {a : α} (h : Curbs p (.ok a) y) : p ∧ y = .ok a := by
  have hp : p := by
    apply Classical.byContradiction
    intro hp
    obtain ⟨_, he, _⟩ := h.fail hp
    cases he
  exact ⟨hp, (h.agree hp).symm⟩

theorem Curbs.eq_noForm {a : α} (h : Curbs p x (.ok a)) (hp : ¬ p) : x = .error .noForm := by
  obtain ⟨e, rfl, rfl | he⟩ := h.fail hp
  · rfl
  · cases he

theorem Curbs.exists_error {e : Failure} (h : Curbs p x (.error e)) : ∃ e', x = .error e' := by
  by_cases hp : p
  · exact ⟨e, h.agree hp⟩
  · obtain ⟨e', hx, _⟩ := h.fail hp
    exact ⟨e', hx⟩

end

/-! ## The two writers -/

section

variable (indent : Option Nat)

theorem curbs_lenientText {v : Value} (h : ¬ HasForm v) :
    Curbs (HasForm v) (lenientText ⟨indent, false⟩ v) (lenientText ⟨indent, true⟩ v) :=
  ⟨fun hform => absurd hform h, fun _ => ⟨.noForm, rfl, .inl rfl⟩⟩

mutual

theorem curbs_write (active : List Nat) (depth : Nat) : (v : Value) →
    Curbs (HasForm v) (write ⟨indent, false⟩ active depth v) (write ⟨indent, true⟩ active depth v)
  | .null => .same .null _
  | .bool b => .same (.bool b) _
  | .int i => .same (.int i) _
  | .float x => .same (.float x) _
  | .text s => .same (.text s) _
  | .list o items => by
    unfold write
    split
    · exact .error _
    · split
      · exact .error _
      · have hparts := (curbs_writeAll (enter active o) (depth + 1) items).bind fun texts =>
          .same trivial (.ok (Layout.enclose ⟨indent, true⟩ depth "[" "]" texts))
        exact hparts.congr (by rw [hasForm_list_iff, and_true])
  | .pair a b => by
    unfold write
    split
    · exact .error _
    · have hparts := (curbs_write active (depth + 1) a).bind fun first =>
        (curbs_write active (depth + 1) b).bind fun second =>
          .same trivial (.ok (Layout.enclose ⟨indent, true⟩ depth "[" "]" [first, second]))
      exact hparts.congr (by rw [hasForm_pair_iff, and_true])
  | .map o entries => by
    unfold write
    split
    · exact .error _
    · split
      · exact .error _
      · have hparts := (curbs_writeEntries (enter active o) (depth + 1) entries).bind fun texts =>
          .same trivial (.ok (Layout.enclose ⟨indent, true⟩ depth "\x7b" "\x7d" texts))
        exact hparts.congr (by rw [hasForm_map_iff, and_true])
  | .bytes b => curbs_lenientText indent nofun
  | .date o d => curbs_lenientText indent nofun
  | .moment o m => curbs_lenientText indent nofun
  | .set o members => curbs_lenientText indent nofun

theorem curbs_writeAll (active : List Nat) (depth : Nat) : (vs : List Value) →
    Curbs (∀ v ∈ vs, HasForm v) (writeAll ⟨indent, false⟩ active depth vs)
      (writeAll ⟨indent, true⟩ active depth vs)
  | [] => .same nofun _
  | v :: rest => by
    unfold writeAll
    have hparts := (curbs_write active depth v).bind fun text =>
      (curbs_writeAll active depth rest).bind fun texts => .same trivial (.ok (text :: texts))
    exact hparts.congr (by simp)

theorem curbs_writeEntries (active : List Nat) (depth : Nat) : (entries : Entries) →
    Curbs (∀ e ∈ entries, HasForm e.2) (writeEntries ⟨indent, false⟩ active depth entries)
      (writeEntries ⟨indent, true⟩ active depth entries)
  | [] => .same nofun _
  | (k, v) :: rest => by
    unfold writeEntries
    -- both writers ask the same of a key
    have hentry := (Curbs.same trivial (keyText k)).bind fun key =>
      (curbs_write active depth v).bind fun text =>
        (curbs_writeEntries active depth rest).bind fun texts =>
          .same trivial (.ok ((quote key ++ ": " ++ text) :: texts))
    exact hentry.congr (by simp)

end

end

end ComponentAttrs.Json
