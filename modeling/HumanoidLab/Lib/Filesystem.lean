import Mathlib.Logic.Function.Basic

/-! A file system as far as crashes show: named folders of files. A rename is one step; a recursive delete removes
    one file after the other, in any order, and may stop anywhere. -/

namespace Filesystem

variable {ν φ α : Type}

/-- The files of a folder; a file that is written again comes first. -/
abbrev Folder (φ α : Type) := List (φ × α)

namespace Folder

variable [DecidableEq φ] {f g : φ} {c : α} {d : Folder φ α} {files : List (φ × α)}

def read (d : Folder φ α) (f : φ) : Option α := d.lookup f

def write (f : φ) (c : α) (d : Folder φ α) : Folder φ α := (f, c) :: d

def unlink (f : φ) (d : Folder φ α) : Folder φ α := d.filter (·.1 ≠ f)

/-- The folder has these files, with these contents. -/
def Holds (d : Folder φ α) (files : List (φ × α)) : Prop := ∀ e ∈ files, d.read e.1 = some e.2

@[simp] theorem read_write_self : (d.write f c).read f = some c := by simp [read, write]

theorem read_write_other (h : g ≠ f) : (d.write f c).read g = d.read g := by
  simp [read, write, List.lookup_cons, beq_false_of_ne h]

@[simp] theorem read_unlink_self : (d.unlink f).read f = none := by
  simp only [read, unlink, List.lookup_eq_none_iff]
  intro e he
  simpa using Ne.symm (of_decide_eq_true (List.mem_filter.mp he).2)

theorem read_unlink_other (h : g ≠ f) : (d.unlink f).read g = d.read g := by
  unfold read unlink
  induction d with
  | nil => rfl
  | cons e d ih =>
    obtain ⟨k, v⟩ := e
    by_cases hk : k = f
    · subst hk
      simpa [List.lookup_cons, beq_false_of_ne h] using ih
    · rw [List.filter_cons_of_pos (by simpa using hk), List.lookup_cons, List.lookup_cons, ih]

theorem Holds.nil : d.Holds [] := by
  intro e he
  cases he

theorem Holds.mono {files' : List (φ × α)} (h : d.Holds files) (hsub : ∀ e ∈ files', e ∈ files) : d.Holds files' :=
  fun e he => h e (hsub e he)

theorem Holds.write (h : d.Holds files) (hf : ∀ e ∈ files, e.1 ≠ f) : (d.write f c).Holds files := by
  intro e he
  rw [read_write_other (hf e he)]
  exact h e he

theorem Holds.unlink (h : d.Holds files) (hf : ∀ e ∈ files, e.1 ≠ f) : (d.unlink f).Holds files := by
  intro e he
  rw [read_unlink_other (hf e he)]
  exact h e he

theorem Holds.snoc (h : d.Holds files) (hf : ∀ e ∈ files, e.1 ≠ f) : (d.write f c).Holds (files ++ [(f, c)]) := by
  intro e he
  rcases List.mem_append.mp he with he | he
  · exact h.write hf e he
  · rw [List.mem_singleton.mp he]
    exact read_write_self

end Folder

/-- The folders, by name. -/
abbrev Tree (ν φ α : Type) := ν → Option (Folder φ α)

namespace Tree

variable [DecidableEq ν] {a b m n : ν} {t : Tree ν φ α}

/-- `mkdir`, of a folder that may exist. -/
def make (n : ν) (t : Tree ν φ α) : Tree ν φ α := Function.update t n (some ((t n).getD []))

/-- A change of the files of a folder, when it exists. -/
def edit (n : ν) (g : Folder φ α → Folder φ α) (t : Tree ν φ α) : Tree ν φ α := Function.update t n ((t n).map g)

/-- The end of a recursive delete: the folder is gone. -/
def remove (n : ν) (t : Tree ν φ α) : Tree ν φ α := Function.update t n none

/-- `rename`, of a folder. -/
def rename (a b : ν) (t : Tree ν φ α) : Tree ν φ α := Function.update (Function.update t a none) b (t a)

/-- A rename may land here: nothing is there, or an empty folder. -/
def Vacant (t : Tree ν φ α) (n : ν) : Prop := ∀ d ∈ t n, d = []

omit [DecidableEq ν] in
instance (t : Tree ν φ α) (n : ν) : Decidable (t.Vacant n) :=
  inferInstanceAs (Decidable (∀ d ∈ t n, d = []))

theorem make_apply : t.make n m = if m = n then some ((t n).getD []) else t m := Function.update_apply ..

theorem edit_apply {g : Folder φ α → Folder φ α} : t.edit n g m = if m = n then (t n).map g else t m :=
  Function.update_apply ..

theorem remove_apply : t.remove n m = if m = n then none else t m := Function.update_apply ..

theorem rename_apply : t.rename a b m = if m = b then t a else if m = a then none else t m := by
  unfold rename
  rw [Function.update_apply, Function.update_apply]

theorem make_other (h : m ≠ n) : t.make n m = t m := make_apply.trans (if_neg h)

theorem edit_self {g : Folder φ α → Folder φ α} {d : Folder φ α} (hd : t n = some d) : t.edit n g n = some (g d) := by
  rw [edit_apply, if_pos rfl, hd, Option.map_some]

theorem edit_other {g : Folder φ α → Folder φ α} (h : m ≠ n) : t.edit n g m = t m := edit_apply.trans (if_neg h)

theorem remove_other (h : m ≠ n) : t.remove n m = t m := remove_apply.trans (if_neg h)

end Tree
end Filesystem
