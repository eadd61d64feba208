import UnderscoreLint.Proofs.Address
import UnderscoreLint.Proofs.Resemblance

/-!
# Siblings are linted independently

A node says nothing about its children if it has no kind, if no enabled rule subscribes to its
kind, or if it is a contract but no library (`Node.IsNeutral`). The rules have no remark about such
a node, and what is below it is met in the same surroundings as if it stood at the top.

`Node.rebase a` moves a node below the address `a`. This is a resemblance, so the tree of a child
gives the same answers below its parent as it does alone, at addresses that are moved. The answers
in a tree with a neutral root are therefore those of the children, one child after the other.
-/

namespace UnderscoreLint

namespace Node

/-- The node with its address continued from another one. -/
def rebase (a : Address) (n : Node) : Node :=
  ⟨a ++ n.address, n.value⟩

theorem attr?_rebase (a : Address) (n : Node) (name : Text) :
    (n.rebase a).attr? name = (n.attr? name).map (rebase a) := by
  simp [attr?, rebase, Function.comp_def]

theorem number_append (a b : Address) (i : Nat) (vs : List Value) :
    number (a ++ b) i vs = (number b i vs).map (rebase a) := by
  induction vs generalizing i with
  | nil => rfl
  | cons v vs ih => simp [number, rebase, ih]

theorem items_rebase (a : Address) (n : Node) : (n.rebase a).items = n.items.map (rebase a) := by
  obtain ⟨address, v⟩ := n
  cases v with
  | list vs => exact number_append a address 0 vs
  | _ => rfl

theorem childrenAt_append (a b : Address) (e : Text × Value) :
    childrenAt (a ++ b) e = (childrenAt b e).map (rebase a) := by
  unfold childrenAt
  split
  · rfl
  · split
    · simp [rebase]
    · rw [List.append_assoc, number_append, List.filter_map]
      rfl
    · rfl

theorem children_rebase (a : Address) (n : Node) :
    (n.rebase a).children = n.children.map (rebase a) := by
  obtain ⟨address, v⟩ := n
  cases v with
  | map entries =>
      rw [children, children, List.map_flatMap]
      exact List.flatMap_congr fun e _ => childrenAt_append a address e
  | _ => rfl

end Node

theorem forall₂_children_rebase {a : Address} {n m : Node} (h : n.rebase a = m) :
    List.Forall₂ (fun n m => n.rebase a = m) n.children m.children := by
  rw [← h, Node.children_rebase, List.forall₂_map_right_iff]
  exact List.forall₂_same.2 fun _ _ => rfl

/-- The diagnostic for the node with its address continued from another one. -/
def Diagnostic.rebase (a : Address) (d : Diagnostic) : Diagnostic :=
  { d with node := d.node.rebase a }

theorem resemblance_rebase (a : Address) : Resemblance fun n m => n.rebase a = m where
  scalar := by
    rintro n m rfl
    rfl
  attr := by
    rintro n m rfl name -
    rw [Node.attr?_rebase]
    cases n.attr? name with
    | none => exact .none
    | some _ => exact .some rfl
  items := by
    rintro n m rfl
    rw [Node.items_rebase, List.filter_map, List.forall₂_map_right_iff]
    exact List.forall₂_same.2 fun _ _ => rfl

theorem Diagnostic.Resembles.eq_rebase {a : Address} {d d' : Diagnostic}
    (h : Resembles (fun n m => n.rebase a = m) d d') : d.rebase a = d' := by
  obtain ⟨overrides, ruleId, ⟨n, message⟩, ⟨m, message'⟩, ⟨hmessage, hnode⟩, rfl, rfl⟩ := h
  cases hmessage
  cases hnode
  rfl

/-- The node has no kind, or a kind that no rule with one of the ids subscribes to, or it is a
contract but no library. -/
def Node.IsNeutral (ids : List Text) (n : Node) : Prop :=
  n.kind? = none ∨
    (∀ c : Convention, c.id ∈ ids → ∀ s ∈ c.subscriptions, n.kind? ≠ some s.1.kind) ∨
    (n.kind? = some ("ContractDefinition" : Text) ∧ n.textAttr? "kind" ≠ some ("library" : Text))

theorem Convention.remarks?_of_not_subscribed {c : Convention} {n : Node}
    (h : ∀ s ∈ c.subscriptions, n.kind? ≠ some s.1.kind) (s : Surroundings) :
    c.remarks? s n = some [] := by
  cases c <;>
    simp_all [subscriptions, remarks?, Node.isKind, parameterKinds, loopKinds]

namespace Node.IsNeutral

variable {ids : List Text} {n : Node} (h : n.IsNeutral ids)

include h

theorem remarks? {c : Convention} (hc : c.id ∈ ids) (s : Surroundings) :
    c.remarks? s n = some [] := by
  rcases h with hkind | hkinds | ⟨hkind, -⟩
  · exact c.remarks?_of_kind_none s hkind
  · exact Convention.remarks?_of_not_subscribed (hkinds c hc) s
  · have htrack : Track.of? n = some .contract := if_pos hkind
    exact c.remarks?_of_track s htrack

theorem isLibrary (hlibrary : Convention.libraryMembers.id ∈ ids) : n.isLibrary = false := by
  unfold Node.isLibrary Node.isKind
  rcases h with hkind | hkinds | ⟨-, hlibrary⟩
  · simp [hkind]
  · have hne := hkinds _ hlibrary _ List.mem_cons_self
    simp [hne]
  · simp [hlibrary]

theorem isDeclaration (hlibrary : Convention.libraryMembers.id ∈ ids) :
    n.isDeclaration = false := by
  unfold Node.isDeclaration Node.isKind
  rcases h with hkind | hkinds | ⟨hkind, -⟩
  · simp [hkind]
  · have hne := hkinds _ hlibrary (⟨"VariableDeclarationStatement", .enter⟩, .enterDeclaration)
      (by decide)
    simp [hne]
  · simp [hkind]

end Node.IsNeutral

/-- The answers for nodes with their addresses continued from another one. -/
def Answer.rebase (a : Address) : Answer → Answer :=
  Option.map (List.map (Diagnostic.rebase a))

theorem Answer.rebase_eq {a : Address} {x y : Answer}
    (h : Option.Rel (List.Forall₂ (Diagnostic.Resembles fun n m => n.rebase a = m)) x y) :
    x.rebase a = y := by
  cases h with
  | none => rfl
  | some h =>
      have hds := h.imp fun _ _ hd => hd.eq_rebase
      rw [← List.forall₂_map_left_iff, List.forall₂_eq_eq_eq] at hds
      exact congrArg some hds

theorem verdict_map_rebase (a : Address) (answers : List Answer) :
    verdict (answers.map (Answer.rebase a)) = verdict answers := by
  have hall : (answers.map (Answer.rebase a)).all Option.isSome = answers.all Option.isSome := by
    simp [Answer.rebase, Function.comp_def]
  rw [verdict, hall, verdict]

theorem found_map_rebase (a : Address) (answers : List Answer) :
    found (answers.map (Answer.rebase a)) = (found answers).map (Diagnostic.rebase a) := by
  rw [found, List.flatMap_map, found, List.map_flatMap]
  refine List.flatMap_congr fun x _ => ?_
  cases x <;> rfl

/-- A walk that asks for the answers of the members of a list, one member after the other, fails
where the first member does. -/
theorem mapM_of_verdict {α β ε : Type} {F : α → Except ε β} {answers : α → List Answer}
    {g : α → β} {fail : WalkError → ε} {as : List α}
    (hF : ∀ a ∈ as, F a = ((verdict (answers a)).mapError fail).map fun _ => g a) :
    as.mapM F = ((verdict (as.flatMap answers)).mapError fail).map fun _ => as.map g := by
  induction as with
  | nil => rfl
  | cons a as ih =>
      have has := ih fun b hb => hF b (List.mem_cons_of_mem a hb)
      rw [List.mapM_cons, has, hF a List.mem_cons_self, List.flatMap_cons]
      cases hverdict : verdict (answers a) with
      | error e =>
          rw [verdict_append_of_error _ hverdict]
          rfl
      | ok =>
          rw [verdict_append_of_ok hverdict]
          cases verdict (as.flatMap answers) <;> rfl

/-- The answers in the tree of a node standing alone, with the addresses of where it stands. -/
def Settings.answersBelow (s : Settings) (n : Node) : List Answer :=
  (s.answers n.value).map (Answer.rebase n.address)

section Children

variable {s : Settings} {root : Node}

/-- A child of a neutral node, with all that is below it, resembles itself standing alone. -/
theorem Node.IsNeutral.resembles (h : root.IsNeutral (s.enabled.getD Convention.ids)) (n : Node) :
    Place.Resembles (fun m m' => m.rebase n.address = m') s.conventions
      (Place.top ⟨[], n.value⟩) ⟨n, [root]⟩ where
  node := by
    change Node.mk (n.address ++ []) n.value = n
    rw [List.append_nil]
  surroundings := by
    intro hlibrary
    have hlibrary := Convention.mem_among.1 hlibrary
    simp [Place.surroundings, Place.top, h.isLibrary hlibrary, h.isDeclaration hlibrary]

theorem Node.IsNeutral.visited (h : root.IsNeutral (s.enabled.getD Convention.ids)) :
    (Place.top root).visited =
      root.visits + (root.children.map fun n => (Place.top ⟨[], n.value⟩).visited).sum := by
  rw [Place.visited_eq, Place.below, List.map_map]
  refine congrArg (fun counts => root.visits + counts.sum) (List.map_congr_left fun n _ => ?_)
  exact ((resemblance_rebase n.address).visited forall₂_children_rebase (h.resembles n)).symm

/-- The answers in a tree with a neutral root: nothing about the root, and then the children. -/
theorem Node.IsNeutral.answers {tree : Value}
    (h : (Node.mk [] tree).IsNeutral (s.enabled.getD Convention.ids)) :
    s.answers tree = s.conventions.map (fun _ => some []) ++
      (Node.mk [] tree).children.flatMap s.answersBelow := by
  rw [Settings.answers, Place.preorder_eq, List.flatMap_cons]
  -- The root gives the first part and its children the second one, as in the order of entering.
  congr 1
  · refine List.map_congr_left fun c hc => ?_
    have hremarks := h.remarks? (Convention.mem_among.1 hc) (Place.top ⟨[], tree⟩).surroundings
    rw [show (Place.top ⟨[], tree⟩).remarks? c = some [] from hremarks]
    rfl
  · rw [List.flatMap_assoc, Place.below, List.flatMap_map]
    refine List.flatMap_congr fun n _ => ?_
    have hanswers := (resemblance_rebase n.address).forall₂_answers forall₂_children_rebase
      s.overrides (h.resembles n)
    have hrebase := hanswers.imp fun _ _ => Answer.rebase_eq
    rw [← List.forall₂_map_left_iff, List.forall₂_eq_eq_eq] at hrebase
    exact hrebase.symm

theorem Node.IsNeutral.verdict_answers {tree : Value}
    (h : (Node.mk [] tree).IsNeutral (s.enabled.getD Convention.ids)) :
    verdict (s.answers tree) = verdict ((Node.mk [] tree).children.flatMap s.answersBelow) := by
  have hsilent : verdict (s.conventions.map fun _ => some []) = .ok () :=
    verdict_eq_ok_iff.2 (by simp)
  rw [h.answers, verdict_append_of_ok hsilent]

theorem Node.IsNeutral.found_answers {tree : Value}
    (h : (Node.mk [] tree).IsNeutral (s.enabled.getD Convention.ids)) :
    found (s.answers tree) = ((Node.mk [] tree).children.map fun n =>
      (found (s.answers n.value)).map (Diagnostic.rebase n.address)).flatten := by
  have hsilent : found (s.conventions.map fun _ => some []) = [] := by
    simp [found]
  rw [h.answers, found_append, hsilent, List.nil_append, found, List.flatMap_assoc,
    ← List.flatMap_def]
  exact List.flatMap_congr fun n _ => found_map_rebase n.address _

end Children

/-- The rules that a configuration enables can be made. -/
theorem Config.exists_rules (c : Config) :
    ∃ rules, Rule.create (some { overrides := c.overrides }) (some c.enabled) [] = .ok rules := by
  refine ⟨_, (Rule.create_eq_ok_iff ..).2 ⟨fun id hid => ?_, rfl⟩⟩
  exact (List.mem_filter.1 hid).1

theorem Config.runFrom_lintTree (c : Config) {tree : Value} (htree : tree.isMap = true)
    (log : Log) :
    ((lintTree c.settings tree).runFrom log).1 =
      ((verdict (c.settings.answers tree)).mapError TreeError.walk).map fun _ =>
        found (c.settings.answers tree) := by
  obtain ⟨rules, hrules⟩ := c.exists_rules
  rw [runFrom_lintTree_of_isMap _ htree]
  simp only [settings, hrules]

/-- Below a neutral root, linting a mapping gives what linting the children gives, one after the
other and at addresses below the root. It fails where the first child fails. The nodes visited are
those of the children, and the root if it has a kind. -/
theorem lintTree_eq_mapM_children (c : Config) {entries : List (Text × Value)}
    (hroot : (Node.mk [] (.map entries)).IsNeutral c.enabled) (log log' : Log) :
    let root : Node := ⟨[], .map entries⟩
    ((lintTree c.settings root.value).runFrom log).1 =
        (root.children.mapM fun n => ((lintTree c.settings n.value).runFrom log').1.map
          (List.map (Diagnostic.rebase n.address))).map List.flatten ∧
      ∃ rules, Rule.create (some { overrides := c.overrides }) (some c.enabled) [] = .ok rules ∧
        (analyse rules c.overrides root.value).1 =
          (root.children.mapM fun n => (analyse rules c.overrides n.value).1).map
            fun counts => root.visits + counts.sum := by
  intro root
  have hneutral : root.IsNeutral (c.settings.enabled.getD Convention.ids) := hroot
  obtain ⟨rules, hrules⟩ := c.exists_rules
  refine ⟨?_, rules, hrules, ?_⟩
  · have hchildren : ∀ n ∈ root.children, ((lintTree c.settings n.value).runFrom log').1.map
        (List.map (Diagnostic.rebase n.address)) =
          ((verdict (c.settings.answersBelow n)).mapError TreeError.walk).map fun _ =>
            (found (c.settings.answers n.value)).map (Diagnostic.rebase n.address) := by
      intro n hn
      rw [c.runFrom_lintTree (Node.isMap_of_mem_children hn), Settings.answersBelow,
        verdict_map_rebase]
      cases verdict (c.settings.answers n.value) <;> rfl
    rw [c.runFrom_lintTree rfl, mapM_of_verdict hchildren, hneutral.verdict_answers,
      hneutral.found_answers]
    cases verdict (root.children.flatMap c.settings.answersBelow) <;> rfl
  · have hcount : ∀ tree : Value, tree.isMap = true → (analyse rules c.overrides tree).1 =
        (verdict (c.settings.answers tree)).map fun _ => (Place.top ⟨[], tree⟩).visited :=
      fun tree htree => (Settings.analyse_of_create (s := c.settings) hrules htree).1
    have hchildren : ∀ n ∈ root.children, (analyse rules c.overrides n.value).1 =
        ((verdict (c.settings.answersBelow n)).mapError id).map fun _ =>
          (Place.top ⟨[], n.value⟩).visited := by
      intro n hn
      rw [hcount _ (Node.isMap_of_mem_children hn), Settings.answersBelow, verdict_map_rebase]
      cases verdict (c.settings.answers n.value) <;> rfl
    rw [hcount _ rfl, mapM_of_verdict hchildren, hneutral.verdict_answers, hneutral.visited]
    cases verdict (root.children.flatMap c.settings.answersBelow) <;> rfl

/-- A contract with a library in it, and a function after the library. -/
def contractAroundLibrary : List (Text × Value) := [
  ("type", .text "ContractDefinition"), ("kind", .text "contract"),
  ("subNodes", .list [
    .map [("type", .text "ContractDefinition"), ("kind", .text "library"),
      ("subNodes", .list [.map [("type", .text "FunctionDefinition"), ("name", .text "f"),
        ("visibility", .text "internal")]])],
    .map [("type", .text "FunctionDefinition"), ("name", .text "g"),
      ("visibility", .text "internal"),
      ("parameters", .list [.map [("name", .text "y")]])]])]

/-- The function after the library is not taken for a member of it. -/
theorem lintTree_eq_mapM_children_contractAroundLibrary :
    let s := (Config.mk []).settings
    let root : Node := ⟨[], .map contractAroundLibrary⟩
    root.IsNeutral (Config.mk []).enabled ∧
      ((lintTree s root.value).runFrom #[]).1.toOption.map (List.map Diagnostic.message) =
        some (["'f' should start with _", "'y' should end with _"] : List Text) ∧
      ((lintTree s root.value).runFrom #[]).1 =
        (root.children.mapM fun n => ((lintTree s n.value).runFrom #[]).1.map
          (List.map (Diagnostic.rebase n.address))).map List.flatten := by
  intro s root
  have hneutral : root.IsNeutral (Config.mk []).enabled := .inr (.inr (by decide))
  exact ⟨hneutral, by decide +kernel, (lintTree_eq_mapM_children _ hneutral #[] #[]).1⟩

end UnderscoreLint
