import Mathlib.Data.List.Nodup
import Mathlib.Data.List.TakeDrop

/-!
# Live lists of children

The children of a node as a list that is edited in place. Its members are told
apart by an identity, and a position is named by the identity of the member that
stands there; no identity names the end. The editing operations are those of a
document tree.

The laws are for a list cut in two parts, the cursor standing at the second one.
-/

namespace XWrt.Foundation

namespace ChildList

variable {α ι : Type*} [DecidableEq ι] (ident : α → ι)

def remove (children : List α) (i : ι) : List α := children.filter fun c => ident c ≠ i

/-- Put a node before the member named, after taking it out of where it stands. -/
def insertBefore (children : List α) (node : α) (reference : Option ι) : List α :=
  let others := remove ident children (ident node)
  match reference with
  | none => others ++ [node]
  | some i => others.takeWhile (fun c => ident c ≠ i) ++ node :: others.dropWhile (fun c => ident c ≠ i)

/-- Change the member named where it stands. -/
def modify (children : List α) (i : ι) (f : α → α) : List α :=
  children.map fun c => if ident c = i then f c else c

/-- Put a node in the place of the member named. -/
def replaceChild (children : List α) (node : α) (i : ι) : List α :=
  modify ident (remove ident children (ident node)) i fun _ => node

def firstChild (children : List α) : Option ι := children.head?.map ident

def nextSibling (children : List α) (i : ι) : Option ι :=
  firstChild ident (children.dropWhile fun c => ident c ≠ i).tail

/-- Take out the member named and every one behind it. -/
def removeFrom (children : List α) : Option ι → List α
  | none => children
  | some i => children.takeWhile fun c => ident c ≠ i

section Laws

variable {ident : α → ι} {placed rest : List α} {node : α} {i : ι}

theorem remove_absent {children : List α} (absent : i ∉ children.map ident) : remove ident children i = children := by
  refine List.filter_eq_self.mpr fun c member => decide_eq_true ?_
  rintro rfl
  exact absent (List.mem_map_of_mem member)

theorem takeWhile_absent (absent : i ∉ placed.map ident) :
    (placed ++ rest).takeWhile (fun c => ident c ≠ i) = placed ++ rest.takeWhile (fun c => ident c ≠ i) := by
  refine List.takeWhile_append_of_pos fun c member => decide_eq_true ?_
  rintro rfl
  exact absent (List.mem_map_of_mem member)

theorem dropWhile_absent (absent : i ∉ placed.map ident) :
    (placed ++ rest).dropWhile (fun c => ident c ≠ i) = rest.dropWhile (fun c => ident c ≠ i) := by
  refine List.dropWhile_append_of_pos fun c member => decide_eq_true ?_
  rintro rfl
  exact absent (List.mem_map_of_mem member)

omit [DecidableEq ι] in
/-- The identities of a list cut in two: none occurs on both sides. -/
theorem absent_of_nodup (distinct : ((placed ++ node :: rest).map ident).Nodup) :
    ident node ∉ placed.map ident ∧ ident node ∉ rest.map ident := by
  rw [List.map_append, List.map_cons] at distinct
  have parts := List.nodup_append.mp distinct
  refine ⟨fun member => parts.2.2 _ member _ List.mem_cons_self rfl, ?_⟩
  exact (List.nodup_cons.mp parts.2.1).1

/-- A node that is put in at the cursor stands between the two parts. -/
theorem insertBefore_fresh (distinct : ((placed ++ rest).map ident).Nodup)
    (fresh : ident node ∉ (placed ++ rest).map ident) :
    insertBefore ident (placed ++ rest) node (firstChild ident rest) = placed ++ node :: rest := by
  cases rest with
  | nil =>
      rw [List.append_nil] at fresh ⊢
      show remove ident placed (ident node) ++ [node] = placed ++ [node]
      rw [remove_absent fresh]
  | cons head tail =>
      have absent := (absent_of_nodup distinct).1
      simp only [insertBefore, firstChild, List.head?_cons, Option.map_some, remove_absent fresh]
      rw [takeWhile_absent absent, dropWhile_absent absent]
      simp

/-- A member of the second part that is moved to the cursor leaves its place there. -/
theorem insertBefore_move {before after : List α}
    (distinct : ((placed ++ (before ++ node :: after)).map ident).Nodup) (ahead : before ≠ []) :
    insertBefore ident (placed ++ (before ++ node :: after)) node (firstChild ident (before ++ node :: after)) =
      placed ++ node :: (before ++ after) := by
  have cut : ((placed ++ before) ++ node :: after).map ident = (placed ++ (before ++ node :: after)).map ident := by
    rw [List.append_assoc]
  have absent := absent_of_nodup (cut ▸ distinct : (((placed ++ before) ++ node :: after).map ident).Nodup)
  have left : remove ident (placed ++ (before ++ node :: after)) (ident node) = placed ++ (before ++ after) := by
    have first := remove_absent absent.1
    have last := remove_absent absent.2
    rw [← List.append_assoc, ← List.append_assoc]
    unfold remove at first last ⊢
    rw [List.filter_append, first, List.filter_cons_of_neg (by simp), last]
  have free : ident node ∉ (placed ++ (before ++ after)).map ident := by
    have outside := absent
    simp only [List.map_append, List.mem_append, not_or] at outside ⊢
    exact ⟨outside.1.1, outside.1.2, outside.2⟩
  have short : ((placed ++ (before ++ after)).map ident).Nodup := by
    refine List.Nodup.sublist (List.Sublist.map ident ?_) distinct
    exact (List.Sublist.refl placed).append ((List.Sublist.refl before).append (List.sublist_cons_self node after))
  have head : firstChild ident (before ++ node :: after) = firstChild ident (before ++ after) := by
    obtain ⟨first, others, rfl⟩ := List.exists_cons_of_ne_nil ahead
    rfl
  have inserted := insertBefore_fresh short free
  rw [head]
  unfold insertBefore at inserted ⊢
  rw [left]
  rw [remove_absent free] at inserted
  exact inserted

theorem modify_absent {children : List α} {f : α → α} (absent : i ∉ children.map ident) :
    modify ident children i f = children := by
  refine (List.map_congr_left fun c member => if_neg ?_).trans (List.map_id children)
  rintro rfl
  exact absent (List.mem_map_of_mem member)

/-- A change where a member stands leaves both sides as they are. -/
theorem modify_middle {f : α → α} (distinct : ((placed ++ node :: rest).map ident).Nodup) :
    modify ident (placed ++ node :: rest) (ident node) f = placed ++ f node :: rest := by
  obtain ⟨before, after⟩ := absent_of_nodup distinct
  have front := modify_absent (f := f) before
  have back := modify_absent (f := f) after
  unfold modify at front back ⊢
  rw [List.map_append, List.map_cons, front, back, if_pos rfl]

theorem replaceChild_middle {next : α} (distinct : ((placed ++ node :: rest).map ident).Nodup)
    (fresh : ident next ∉ (placed ++ node :: rest).map ident) :
    replaceChild ident (placed ++ node :: rest) next (ident node) = placed ++ next :: rest := by
  unfold replaceChild
  rw [remove_absent fresh, modify_middle distinct]

theorem nextSibling_middle (distinct : ((placed ++ node :: rest).map ident).Nodup) :
    nextSibling ident (placed ++ node :: rest) (ident node) = firstChild ident rest := by
  unfold nextSibling
  rw [dropWhile_absent (absent_of_nodup distinct).1]
  simp

theorem removeFrom_rest (distinct : ((placed ++ rest).map ident).Nodup) :
    removeFrom ident (placed ++ rest) (firstChild ident rest) = placed := by
  cases rest with
  | nil => simp [firstChild, removeFrom]
  | cons head tail =>
      simp only [firstChild, List.head?_cons, Option.map_some, removeFrom]
      rw [takeWhile_absent (absent_of_nodup distinct).1]
      simp

theorem find?_middle (distinct : ((placed ++ node :: rest).map ident).Nodup) :
    (placed ++ node :: rest).find? (fun c => ident c = ident node) = some node := by
  have before : placed.find? (fun c => ident c = ident node) = none := by
    refine List.find?_eq_none.mpr fun c member same => (absent_of_nodup distinct).1 ?_
    exact of_decide_eq_true same ▸ List.mem_map_of_mem member
  rw [List.find?_append, before]
  simp

end Laws

end ChildList

end XWrt.Foundation
