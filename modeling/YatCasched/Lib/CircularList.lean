import Mathlib.Data.List.Nodup
import Mathlib.Logic.Function.Basic

/-!
# Intrusive circular lists

The doubly linked lists of C kernels keep a {lit}`next` and a {lit}`prev`
pointer inside every element and close the chain through a separate head node;
a node that is on no list points to itself.  The heap below is the pair of
pointer maps, and the primitives are the pointer assignments of the C code.

Main results:

- Theorem {lit}`Ring.addTail`: adding at the tail appends to the list.
- Theorem {lit}`Ring.delInit`: unlinking removes one element, and
  {lit}`ring_listDelInit_self` leaves the removed node self-linked.
- Theorems {lit}`Ring.frame_addTail` and {lit}`Ring.frame_delInit`:
  rings with other nodes are untouched.
- Theorem {lit}`Ring.unique`: the pointers determine the list.
-/

namespace YatCasched
namespace CircularList

variable {A : Type*} [DecidableEq A]

/-- The pointer fields of all list nodes. -/
structure Links (A : Type*) where
  next : A → A
  prev : A → A

/-- {lit}`head->next = head; head->prev = head`. -/
def initListHead (h : Links A) (head : A) : Links A where
  next := Function.update h.next head head
  prev := Function.update h.prev head head

/-- Link {lit}`new` between two consecutive nodes. -/
def listAdd (h : Links A) (new prev next : A) : Links A where
  next := Function.update (Function.update h.next new next) prev new
  prev := Function.update (Function.update h.prev next new) new prev

/-- Link {lit}`new` just before the head, that is, at the tail. -/
def listAddTail (h : Links A) (new head : A) : Links A :=
  listAdd h new (h.prev head) head

/-- Make two nodes neighbours. -/
def listDel (h : Links A) (prev next : A) : Links A where
  next := Function.update h.next prev next
  prev := Function.update h.prev next prev

/-- Unlink a node and point it to itself. -/
def listDelInit (h : Links A) (entry : A) : Links A :=
  initListHead (listDel h (h.prev entry) (h.next entry)) entry

/-- A head whose {lit}`next` is itself. -/
def listEmpty (h : Links A) (head : A) : Bool :=
  h.next head = head

/-- The node after the head. -/
def listFirstEntry (h : Links A) (head : A) : A :=
  h.next head

/-! ## Paths -/

/-- Node {lit}`b` follows node {lit}`a`, in both directions. -/
def Linked (h : Links A) (a b : A) : Prop :=
  h.next a = b ∧ h.prev b = a

/-- The pointers lead from {lit}`a` through the listed nodes to {lit}`b`. -/
def Path (h : Links A) : A → List A → A → Prop
  | a, [], b => Linked h a b
  | a, x :: xs, b => Linked h a x ∧ Path h x xs b

omit [DecidableEq A] in
/-- A path only reads the {lit}`next` fields of its sources and the
{lit}`prev` fields of its targets. -/
theorem Path.congr {h h' : Links A} :
    ∀ {a b : A} {xs : List A},
      (∀ y ∈ a :: xs, h'.next y = h.next y) →
      (∀ y ∈ b :: xs, h'.prev y = h.prev y) →
      Path h a xs b → Path h' a xs b
  | a, b, [], hnext, hprev, hpath =>
      ⟨(hnext a (by simp)).trans hpath.1, (hprev b (by simp)).trans hpath.2⟩
  | a, b, x :: xs, hnext, hprev, hpath => by
      refine ⟨⟨?_, ?_⟩, ?_⟩
      · rw [hnext a (by simp)]
        exact hpath.1.1
      · rw [hprev x (by simp)]
        exact hpath.1.2
      · refine Path.congr (fun y hy => hnext y (by simp_all)) (fun y hy => hprev y ?_) hpath.2
        simp only [List.mem_cons] at hy ⊢
        tauto

omit [DecidableEq A] in
/-- The node before the end of a path lies on the path. -/
theorem Path.prev_mem {h : Links A} :
    ∀ {a b : A} {xs : List A}, Path h a xs b → h.prev b ∈ a :: xs
  | a, b, [], hpath => by simp [hpath.2]
  | a, b, x :: xs, hpath => List.mem_cons_of_mem a (Path.prev_mem hpath.2)

omit [DecidableEq A] in
/-- The node after the start of a path lies on the path. -/
theorem Path.next_mem {h : Links A} {a b : A} {xs : List A}
    (hpath : Path h a xs b) : h.next a ∈ b :: xs := by
  cases xs with
  | nil => simp [hpath.1]
  | cons x xs => simp [hpath.1.1]

omit [DecidableEq A] in
/-- A path through {lit}`x` splits at {lit}`x`. -/
theorem path_append {h : Links A} {x b : A} {ys : List A} :
    ∀ {a : A} {xs : List A},
      Path h a (xs ++ x :: ys) b ↔ Path h a xs x ∧ Path h x ys b
  | a, [] => Iff.rfl
  | a, z :: xs => by
      simp only [List.cons_append, Path, path_append, and_assoc]

omit [DecidableEq A] in
/-- Two paths from one node to a node outside both visit the same nodes. -/
theorem Path.unique {h : Links A} :
    ∀ {a b : A} {xs ys : List A}, b ∉ xs → b ∉ ys →
      Path h a xs b → Path h a ys b → xs = ys
  | _, _, [], [], _, _, _, _ => rfl
  | _, b, [], y :: ys, _, hys, hxs', hys' => by
      have hby : b = y := hxs'.1.symm.trans hys'.1.1
      exact absurd hby (by simp_all)
  | _, b, x :: xs, [], hxs, _, hxs', hys' => by
      have hbx : b = x := hys'.1.symm.trans hxs'.1.1
      exact absurd hbx (by simp_all)
  | _, b, x :: xs, y :: ys, hxs, hys, hxs', hys' => by
      have hxy : x = y := hxs'.1.1.symm.trans hys'.1.1
      subst hxy
      rw [Path.unique (by simp_all) (by simp_all) hxs'.2 hys'.2]

/-- Adding before the end of a path extends the path by the new node. -/
theorem Path.addTail {h : Links A} {new b : A} (hnb : new ≠ b) :
    ∀ {a : A} {xs : List A}, (a :: xs).Nodup → b ∉ xs → new ∉ a :: xs →
      Path h a xs b → Path (listAddTail h new b) a (xs ++ [new]) b
  | a, [], _, _, hnew, hpath => by
      have hna : new ≠ a := by simpa using hnew
      simp [Path, Linked, listAddTail, listAdd, hpath.2, hna, hnb.symm]
  | a, x :: xs, hnodup, hb, hnew, hpath => by
      have hlast := Path.prev_mem hpath.2
      have hax : a ≠ h.prev b := by
        rintro rfl
        exact (List.nodup_cons.mp hnodup).1 hlast
      have hxb : x ≠ b := by rintro rfl; simp at hb
      have hxn : x ≠ new := by rintro rfl; simp at hnew
      have han : a ≠ new := by rintro rfl; simp at hnew
      refine ⟨⟨?_, ?_⟩, ?_⟩
      · simpa [listAddTail, listAdd, hax, han] using hpath.1.1
      · simpa [listAddTail, listAdd, hxb, hxn] using hpath.1.2
      · exact Path.addTail hnb (List.nodup_cons.mp hnodup).2
          (by simp_all) (by simp_all) hpath.2

/-- Unlinking an inner node of a path joins its two halves. -/
theorem Path.delInit {h : Links A} {x b : A} {zs : List A} (hxb : x ≠ b)
    (hzs : (x :: zs).Nodup) (hbz : b ∉ zs) :
    ∀ {a : A} {ys : List A}, (a :: ys).Nodup → (∀ y ∈ a :: ys, y ∉ x :: zs) →
      b ∉ ys → Path h a ys x → Path h x zs b →
      Path (listDelInit h x) a (ys ++ zs) b
  | a, [], _, hdisj, _, hfirst, hsecond => by
      have hax : a ≠ x := by simpa using fun hax => hdisj a (by simp) (by simp [hax])
      cases zs with
      | nil =>
          simp [Path, Linked, listDelInit, initListHead, listDel,
            hfirst.2, hsecond.1, hax, hxb.symm]
      | cons z zs =>
          have hzx : z ≠ x := by rintro rfl; simp at hzs
          refine ⟨?_, Path.congr ?_ ?_ hsecond.2⟩
          · simp [Linked, listDelInit, initListHead, listDel,
              hfirst.2, hsecond.1.1, hax, hzx]
          · intro y hy
            have hyx : y ≠ x := by rintro rfl; exact (List.nodup_cons.mp hzs).1 hy
            have hya : y ≠ a := by
              rintro rfl
              exact hdisj y (by simp) (List.mem_cons_of_mem x hy)
            simp [listDelInit, initListHead, listDel, hfirst.2, hyx, hya]
          · intro y hy
            have hyz : y ≠ z := by
              rintro rfl
              rcases List.mem_cons.mp hy with rfl | hy
              · simp at hbz
              · exact (List.nodup_cons.mp (List.nodup_cons.mp hzs).2).1 hy
            have hyx : y ≠ x := by
              rintro rfl
              rcases List.mem_cons.mp hy with rfl | hy
              · exact hxb rfl
              · exact (List.nodup_cons.mp hzs).1 (List.mem_cons_of_mem z hy)
            simp [listDelInit, initListHead, listDel, hsecond.1.1, hyz, hyx]
  | a, y :: ys, hnodup, hdisj, hb, hfirst, hsecond => by
      have hlast := Path.prev_mem hfirst.2
      have hnext := Path.next_mem hsecond
      have hal : a ≠ h.prev x := by
        rintro rfl
        exact (List.nodup_cons.mp hnodup).1 hlast
      have hax : a ≠ x := by rintro rfl; exact hdisj a (by simp) (by simp)
      have hyx : y ≠ x := by rintro rfl; exact hdisj y (by simp) (by simp)
      have hyn : y ≠ h.next x := by
        intro hyn
        rcases List.mem_cons.mp hnext with hbn | hzn
        · exact hb (by simp [hyn, hbn])
        · exact hdisj y (by simp) (by simp [hyn, hzn])
      refine ⟨⟨?_, ?_⟩, ?_⟩
      · simpa [listDelInit, initListHead, listDel, hal, hax] using hfirst.1.1
      · simpa [listDelInit, initListHead, listDel, hyn, hyx] using hfirst.1.2
      · exact Path.delInit hxb hzs hbz (List.nodup_cons.mp hnodup).2
          (fun w hw => hdisj w (List.mem_cons_of_mem a hw)) (by simp_all) hfirst.2 hsecond

/-! ## Rings -/

/-- The ring through {lit}`head` visits exactly the listed nodes, each once. -/
structure Ring (h : Links A) (head : A) (xs : List A) : Prop where
  path : Path h head xs head
  nodup : (head :: xs).Nodup

omit [DecidableEq A] in
/-- The head is not one of the listed nodes. -/
theorem Ring.head_notMem {h : Links A} {head : A} {xs : List A}
    (hring : Ring h head xs) : head ∉ xs :=
  (List.nodup_cons.mp hring.nodup).1

omit [DecidableEq A] in
/-- The pointers determine the list behind a head. -/
theorem Ring.unique {h : Links A} {head : A} {xs ys : List A}
    (hxs : Ring h head xs) (hys : Ring h head ys) : xs = ys :=
  Path.unique hxs.head_notMem hys.head_notMem hxs.path hys.path

omit [DecidableEq A] in
/-- Pointer maps that agree on the nodes of a ring carry the same ring. -/
theorem Ring.congr {h h' : Links A} {head : A} {xs : List A}
    (hnext : ∀ y ∈ head :: xs, h'.next y = h.next y)
    (hprev : ∀ y ∈ head :: xs, h'.prev y = h.prev y)
    (hring : Ring h head xs) : Ring h' head xs :=
  ⟨Path.congr hnext hprev hring.path, hring.nodup⟩

/-- A freshly initialised head carries the empty ring. -/
theorem ring_initListHead (h : Links A) (head : A) :
    Ring (initListHead h head) head [] := by
  refine ⟨?_, by simp⟩
  simp [Path, Linked, initListHead]

/-- Initialising one head leaves the rings without that node alone. -/
theorem Ring.frame_initListHead {h : Links A} {head new : A} {xs : List A}
    (hring : Ring h head xs) (hnew : new ∉ head :: xs) :
    Ring (initListHead h new) head xs := by
  refine hring.congr ?_ ?_ <;>
  · intro y hy
    have hyn : y ≠ new := by rintro rfl; exact hnew hy
    simp [initListHead, hyn]

/-- The emptiness test of a head is emptiness of its ring. -/
theorem Ring.listEmpty_iff {h : Links A} {head : A} {xs : List A}
    (hring : Ring h head xs) : listEmpty h head = true ↔ xs = [] := by
  cases xs with
  | nil => simpa [listEmpty] using hring.path.1
  | cons x xs =>
      have hxh : x ≠ head := by
        rintro rfl
        exact hring.head_notMem (by simp)
      simp [listEmpty, hring.path.1.1, hxh]

omit [DecidableEq A] in
/-- The first entry of a nonempty ring is the head of its list. -/
theorem Ring.listFirstEntry_eq {h : Links A} {head x : A} {xs : List A}
    (hring : Ring h head (x :: xs)) : listFirstEntry h head = x :=
  hring.path.1.1

/-- A node on a ring does not point to itself. -/
theorem Ring.listEmpty_mem {h : Links A} {head x : A} {xs : List A}
    (hring : Ring h head xs) (hx : x ∈ xs) : listEmpty h x = false := by
  obtain ⟨ys, zs, rfl⟩ := List.append_of_mem hx
  have hpath := (path_append.mp hring.path).2
  have hnext := Path.next_mem hpath
  have hne : h.next x ≠ x := by
    intro heq
    rw [heq] at hnext
    have hnodup := hring.nodup
    simp only [List.nodup_cons, List.mem_append, List.mem_cons, List.nodup_append] at hnodup
    rcases List.mem_cons.mp hnext with rfl | hz
    · exact hring.head_notMem (by simp)
    · exact hnodup.2.2.1.1 hz
  simpa [listEmpty] using hne

/-- Adding a self-linked node at the tail appends it to the list. -/
theorem Ring.addTail {h : Links A} {head new : A} {xs : List A}
    (hring : Ring h head xs) (hnew : new ∉ head :: xs) :
    Ring (listAddTail h new head) head (xs ++ [new]) := by
  have hnh : new ≠ head := by rintro rfl; simp at hnew
  refine ⟨Path.addTail hnh hring.nodup hring.head_notMem hnew hring.path, ?_⟩
  have hnodup := hring.nodup
  simp only [List.nodup_cons, List.mem_cons, List.mem_append, List.nodup_append] at *
  grind

/-- Adding to one ring leaves the rings with other nodes alone. -/
theorem Ring.frame_addTail {h : Links A} {head head' new : A} {xs ys : List A}
    (hring : Ring h head xs) (hother : Ring h head' ys)
    (hnew : new ∉ head' :: ys) (hdisj : ∀ y ∈ head' :: ys, y ∉ head :: xs) :
    Ring (listAddTail h new head) head' ys := by
  have hlast := Path.prev_mem hring.path
  refine hother.congr ?_ ?_
  · intro y hy
    have hyn : y ≠ new := by rintro rfl; exact hnew hy
    have hyl : y ≠ h.prev head := by rintro rfl; exact hdisj _ hy hlast
    simp [listAddTail, listAdd, hyn, hyl]
  · intro y hy
    have hyn : y ≠ new := by rintro rfl; exact hnew hy
    have hyh : y ≠ head := by rintro rfl; exact hdisj _ hy (by simp)
    simp [listAddTail, listAdd, hyn, hyh]

/-- Unlinking a listed node erases it from the list. -/
theorem Ring.delInit {h : Links A} {head x : A} {xs : List A}
    (hring : Ring h head xs) (hx : x ∈ xs) :
    Ring (listDelInit h x) head (xs.erase x) := by
  obtain ⟨ys, zs, rfl⟩ := List.append_of_mem hx
  obtain ⟨hfirst, hsecond⟩ := path_append.mp hring.path
  have hmiddle : (x :: head :: (ys ++ zs)).Nodup := by
    rw [← List.cons_append, ← List.nodup_middle]
    exact hring.nodup
  obtain ⟨hxn, hrest⟩ := List.nodup_cons.mp hmiddle
  obtain ⟨hhead, hpair⟩ := List.nodup_cons.mp hrest
  obtain ⟨hys, hzs, hdisj⟩ := List.nodup_append.mp hpair
  simp only [List.mem_cons, List.mem_append, not_or] at hxn hhead
  have herase : (ys ++ x :: zs).erase x = ys ++ zs := by
    rw [List.erase_append_right _ hxn.2.1, List.erase_cons_head]
  rw [herase]
  refine ⟨Path.delInit hxn.1 (List.nodup_cons.mpr ⟨hxn.2.2, hzs⟩) hhead.2
    (List.nodup_cons.mpr ⟨hhead.1, hys⟩) ?_ hhead.1 hfirst hsecond, hrest⟩
  intro y hy hyz
  rcases List.mem_cons.mp hy with rfl | hy <;> rcases List.mem_cons.mp hyz with rfl | hyz
  · exact hxn.1 rfl
  · exact hhead.2 hyz
  · exact hxn.2.1 hy
  · exact hdisj y hy y hyz rfl

omit [DecidableEq A] in
/-- The neighbours of a listed node lie on the same ring. -/
theorem Ring.neighbours_mem {h : Links A} {head x : A} {xs : List A}
    (hring : Ring h head xs) (hx : x ∈ xs) :
    h.prev x ∈ head :: xs ∧ h.next x ∈ head :: xs := by
  obtain ⟨ys, zs, rfl⟩ := List.append_of_mem hx
  obtain ⟨hfirst, hsecond⟩ := path_append.mp hring.path
  have hprev := Path.prev_mem hfirst
  have hnext := Path.next_mem hsecond
  simp only [List.mem_cons, List.mem_append] at *
  tauto

/-- An unlinked node points to itself. -/
theorem ring_listDelInit_self (h : Links A) (x : A) :
    Ring (listDelInit h x) x [] :=
  ring_initListHead _ _

/-- Unlinking from one ring leaves the rings with other nodes alone. -/
theorem Ring.frame_delInit {h : Links A} {head head' x : A} {xs ys : List A}
    (hring : Ring h head xs) (hx : x ∈ xs) (hother : Ring h head' ys)
    (hdisj : ∀ y ∈ head' :: ys, y ∉ head :: xs) :
    Ring (listDelInit h x) head' ys := by
  obtain ⟨hprev, hnext⟩ := hring.neighbours_mem hx
  refine hother.congr ?_ ?_
  · intro y hy
    have hyx : y ≠ x := by rintro rfl; exact hdisj _ hy (List.mem_cons_of_mem _ hx)
    have hyp : y ≠ h.prev x := by rintro rfl; exact hdisj _ hy hprev
    simp [listDelInit, initListHead, listDel, hyx, hyp]
  · intro y hy
    have hyx : y ≠ x := by rintro rfl; exact hdisj _ hy (List.mem_cons_of_mem _ hx)
    have hyn : y ≠ h.next x := by rintro rfl; exact hdisj _ hy hnext
    simp [listDelInit, initListHead, listDel, hyx, hyn]

end CircularList
end YatCasched
