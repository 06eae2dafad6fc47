import TreeAccord.Proofs.Tree.Order
import Mathlib.Data.List.Induction
import Mathlib.Data.List.Nodup

/-! # Whatever is asked of a table

A table answers requests for nodes one after the other, refused ones among them. Parents and lists
of children are stored apart, but after any requests each tells what the other does, and the rows
form one tree below the root. -/

namespace TreeAccord.NodeTable

/-! ## Rows and their children -/

/-- The children of a row, from first to last. -/
def children (t : NodeTable) (i : Nat) : List Nat := (t.row? i).elim [] Row.children

/-- The children of a row, asked for one after the other. -/
def eachChild (t : NodeTable) (i : Nat) : List Nat :=
  (List.range (t.children i).length).filterMap (t.child? i)

/-- The row that is reached from row `i` downwards, by the position of the child at each step. -/
def descend (t : NodeTable) (i : Nat) (path : List Nat) : Option Nat := path.foldlM t.child? i

theorem children_of_row {t : NodeTable} {i : Nat} {row : Row} (h : t.row? i = some row) :
    t.children i = row.children := by
  rw [children, h]
  rfl

theorem child?_eq (t : NodeTable) (i k : Nat) : t.child? i k = (t.children i)[k]? := by
  rw [child?, children]
  cases t.row? i <;> rfl

theorem eachChild_eq (t : NodeTable) (i : Nat) : t.eachChild i = t.children i := by
  have hlist : ∀ rows : List Nat,
      (List.range rows.length).filterMap (fun k => rows[k]?) = rows := by
    intro rows
    induction rows with
    | nil => rfl
    | cons row rows ih =>
        have hfirst : (row :: rows)[0]? = some row := rfl
        rw [List.length_cons, List.range_succ_eq_map,
          List.filterMap_cons_some (f := fun k => (row :: rows)[k]?) hfirst, List.filterMap_map]
        exact congrArg (row :: ·) ih
  rw [eachChild, funext (t.child?_eq i)]
  exact hlist (t.children i)

theorem descend_concat (t : NodeTable) (i : Nat) (path : List Nat) (k : Nat) :
    t.descend i (path ++ [k]) = (t.descend i path).bind fun j => t.child? j k := by
  rw [descend, descend, List.foldlM_append]
  simp

/-! ## Links in both directions -/

/-- Parents and lists of children tell the same, and the rows form one tree with its root in
row 0. -/
structure Linked (t : NodeTable) : Prop where
  /-- There is a root, without parent and without token. -/
  root : 0 < t.size ∧ t.parent? 0 = none ∧ t.isToken 0 = false
  /-- Every other row has a parent before it, and stands in its list once. -/
  parent : ∀ i, 0 < i → i < t.size →
    ∃ p, t.parent? i = some p ∧ p < i ∧ (t.children p).count i = 1
  /-- A row stands in no list but its parent's. -/
  listed : ∀ p i, i ∈ t.children p → t.parent? i = some p
  increasing : ∀ p, (t.children p).Pairwise (· < ·)
  leaves : ∀ i, t.isToken i = true → t.children i = []
  /-- However the children of a row are asked for, they are the same rows in the same order. -/
  enumerated : ∀ i, (∀ k, t.child? i k = (t.children i)[k]?) ∧ t.eachChild i = t.children i ∧
    (t.subtree i).children = (t.children i).map t.subtree
  /-- One way leads down from the root to each row. -/
  reached : ∀ i, i < t.size → ∃! path, t.descend 0 path = some i

namespace Built

variable {t : NodeTable} (h : Built t)
include h

theorem mem_children_iff {p i : Nat} : i ∈ t.children p ↔ t.parent? i = some p := by
  cases hrow : t.row? p with
  | none =>
      rw [children, hrow]
      refine ⟨fun hi => (List.not_mem_nil hi).elim, fun hparent => ?_⟩
      have hlt := Nat.lt_trans (h.lt_of_parent? hparent) (lt_size_of_parent? hparent)
      exact absurd (Array.getElem?_eq_none_iff.mp hrow) (Nat.not_le.mpr hlt)
  | some row =>
      rw [children_of_row hrow]
      exact h.mem_children_of_row_iff hrow

theorem pairwise_children (p : Nat) : (t.children p).Pairwise (· < ·) := by
  cases hrow : t.row? p with
  | none =>
      rw [children, hrow]
      exact .nil
  | some row =>
      rw [children_of_row hrow, h.children_eq hrow]
      exact List.pairwise_lt_range.filter _

theorem nodup_children (p : Nat) : (t.children p).Nodup :=
  (h.pairwise_children p).imp Nat.ne_of_lt

theorem parent?_of_child? {p k i : Nat} (hchild : t.child? p k = some i) :
    t.parent? i = some p := by
  rw [child?_eq] at hchild
  exact h.mem_children_iff.mp (List.mem_of_getElem? hchild)

theorem parent?_zero : t.parent? 0 = none := by
  cases hparent : t.parent? 0 with
  | none => rfl
  | some p => exact absurd (h.lt_of_parent? hparent) (Nat.not_lt_zero p)

theorem exists_descend {i : Nat} (hi : i < t.size) : ∃ path, t.descend 0 path = some i := by
  induction i using Nat.strongRecOn with
  | ind i ih =>
      rcases Nat.eq_zero_or_pos i with rfl | hpos
      · exact ⟨[], rfl⟩
      · obtain ⟨p, hparent⟩ := h.exists_parent? hpos hi
        have hlt := h.lt_of_parent? hparent
        obtain ⟨path, hpath⟩ := ih p hlt (Nat.lt_trans hlt hi)
        obtain ⟨k, hk⟩ := List.mem_iff_getElem?.mp (h.mem_children_iff.mpr hparent)
        refine ⟨path ++ [k], ?_⟩
        rw [descend_concat, hpath, Option.bind_some, child?_eq, hk]

/-- A way down ends with a step from the parent of the row where it ends. -/
theorem exists_last_step {i k : Nat} {path : List Nat}
    (hpath : t.descend 0 (path ++ [k]) = some i) :
    ∃ p, t.parent? i = some p ∧ t.descend 0 path = some p ∧ (t.children p)[k]? = some i := by
  rw [descend_concat] at hpath
  obtain ⟨p, hbefore, hchild⟩ := Option.bind_eq_some_iff.mp hpath
  exact ⟨p, h.parent?_of_child? hchild, hbefore, by rw [← child?_eq, hchild]⟩

theorem descend_inj {i : Nat} {path path' : List Nat} (hpath : t.descend 0 path = some i)
    (hpath' : t.descend 0 path' = some i) : path = path' := by
  induction path using List.reverseRecOn generalizing i path' with
  | nil =>
      obtain rfl : 0 = i := Option.some.inj hpath
      rcases List.eq_nil_or_concat path' with rfl | ⟨before', k', rfl⟩
      · rfl
      · rw [List.concat_eq_append] at hpath'
        obtain ⟨p', hparent', -, -⟩ := h.exists_last_step hpath'
        rw [h.parent?_zero] at hparent'
        cases hparent'
  | append_singleton before k ih =>
      obtain ⟨p, hparent, hbefore, hk⟩ := h.exists_last_step hpath
      rcases List.eq_nil_or_concat path' with rfl | ⟨before', k', rfl⟩
      · obtain rfl : 0 = i := Option.some.inj hpath'
        rw [h.parent?_zero] at hparent
        cases hparent
      · rw [List.concat_eq_append] at hpath' ⊢
        obtain ⟨p', hparent', hbefore', hk'⟩ := h.exists_last_step hpath'
        obtain rfl : p = p' := Option.some.inj (hparent.symm.trans hparent')
        obtain rfl := ih hbefore hbefore'
        -- a row stands in its parent's list once, and so the positions are the same
        have hlt : k < (t.children p).length := (List.getElem?_eq_some_iff.mp hk).1
        obtain rfl : k = k' := (List.getElem?_inj hlt (h.nodup_children p)).mp (hk.trans hk'.symm)
        rfl

theorem linked : Linked t where
  root := by
    obtain ⟨row, hrow, -, hnone⟩ := h.exists_rootRow
    refine ⟨h.size_pos, h.parent?_zero, ?_⟩
    rw [isToken, row?, hrow, Option.any_some, hnone]
    rfl
  parent i hpos hi := by
    obtain ⟨p, hparent⟩ := h.exists_parent? hpos hi
    exact ⟨p, hparent, h.lt_of_parent? hparent,
      List.count_eq_one_of_mem (h.nodup_children p) (h.mem_children_iff.mpr hparent)⟩
  listed p i := h.mem_children_iff.mp
  increasing := h.pairwise_children
  leaves i htoken := by
    obtain ⟨row, hrow, htoken⟩ := (Option.any_eq_true _ _).mp htoken
    rw [children_of_row hrow]
    exact h.children_eq_nil hrow htoken
  enumerated i := by
    refine ⟨t.child?_eq i, t.eachChild_eq i, ?_⟩
    cases hrow : t.row? i with
    | none =>
        rw [children, hrow, subtree]
        split
        · rfl
        · rename_i row hsome
          cases hsome.symm.trans hrow
    | some row => rw [subtree_of_row hrow, children_of_row hrow, Tree.children_node]
  reached i hi := by
    obtain ⟨path, hpath⟩ := h.exists_descend hi
    exact ⟨path, hpath, fun path' hpath' => h.descend_inj hpath' hpath⟩

end Built

/-! ## Requests -/

/-- What comes of a request: a row at the end, or a refusal that leaves everything as it was. -/
structure Answered (t : NodeTable) (request : Request) : Prop where
  refused_iff : (∃ refusal, (t.attempt request).1 = .error refusal) ↔
    t.size ≤ request.parent ∨ t.isToken request.parent = true ∨ t.size = capacity
  unchanged : ∀ refusal, (t.attempt request).1 = .error refusal → (t.attempt request).2 = t
  added : ∀ row, (t.attempt request).1 = .ok row →
    row = t.size ∧ (t.attempt request).2.size = t.size + 1 ∧
      ∀ i, (t.attempt request).2.row? i =
        if i = t.size then
          some { rule := request.rule, token? := request.token?, parent? := some request.parent }
        else if i = request.parent then
          (t.row? i).map fun row => { row with children := row.children ++ [t.size] }
        else t.row? i

theorem attempt_of_ok {t t' : NodeTable} {request : Request}
    (h : t.push request.parent request.rule request.token? = .ok t') :
    t.attempt request = (.ok t.size, t') := by
  rw [attempt, h]

theorem attempt_of_error {t : NodeTable} {request : Request} {refusal : Refusal}
    (h : t.push request.parent request.rule request.token? = .error refusal) :
    t.attempt request = (.error refusal, t) := by
  rw [attempt, h]

theorem exists_attempt_eq_error {t : NodeTable} {request : Request} :
    (∃ refusal, (t.attempt request).1 = .error refusal) ↔
      ∃ refusal, t.push request.parent request.rule request.token? = .error refusal := by
  cases hpush : t.push request.parent request.rule request.token? with
  | ok t' =>
      rw [attempt_of_ok hpush]
      simp
  | error refusal =>
      rw [attempt_of_error hpush]
      simp

theorem Built.attempt {t : NodeTable} (h : Built t) (request : Request) :
    Built (t.attempt request).2 := by
  cases hpush : t.push request.parent request.rule request.token? with
  | ok t' =>
      rw [attempt_of_ok hpush]
      exact h.push hpush
  | error refusal =>
      rw [attempt_of_error hpush]
      exact h

theorem Built.answered {t : NodeTable} (h : Built t) (request : Request) : Answered t request := by
  have hfull : capacity ≤ t.size ↔ t.size = capacity :=
    ⟨fun hle => Nat.le_antisymm h.size_le hle, fun heq => Nat.le_of_eq heq.symm⟩
  have hrefused := t.push_refused_iff request.parent request.rule request.token?
  rw [← exists_attempt_eq_error, hfull] at hrefused
  refine ⟨hrefused, ?_, ?_⟩
  · intro refusal herror
    cases hpush : t.push request.parent request.rule request.token? with
    | ok t' =>
        rw [attempt_of_ok hpush] at herror
        cases herror
    | error refusal => rw [attempt_of_error hpush]
  · intro row hok
    cases hpush : t.push request.parent request.rule request.token? with
    | ok t' =>
        rw [attempt_of_ok hpush] at hok ⊢
        obtain rfl := Except.ok.inj hok
        exact ⟨rfl, size_of_push hpush, row?_of_push hpush⟩
    | error refusal =>
        rw [attempt_of_error hpush] at hok
        cases hok

/-- The table that some requests leave behind, from a root on. -/
def ofRequests (rule : String) (requests : List Request) : NodeTable :=
  requests.foldl (fun t request => (t.attempt request).2) (.singleton rule)

theorem built_ofRequests (rule : String) (requests : List Request) :
    Built (ofRequests rule requests) := by
  induction requests using List.reverseRecOn with
  | nil => exact .singleton rule
  | append_singleton earlier request ih =>
      rw [ofRequests, List.foldl_append]
      exact ih.attempt request

/-- After any requests, whichever of them were refused, the table is linked in both directions, and
it answers every further request in the same way. -/
theorem linked_ofRequests (rule : String) (requests : List Request) :
    Linked (ofRequests rule requests) ∧ ∀ request, Answered (ofRequests rule requests) request :=
  ⟨(built_ofRequests rule requests).linked, (built_ofRequests rule requests).answered⟩

end TreeAccord.NodeTable
