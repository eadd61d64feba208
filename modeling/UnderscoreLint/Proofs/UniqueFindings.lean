import UnderscoreLint.Proofs.Address
import UnderscoreLint.Proofs.LintOutcome

/-!
# No finding is reported twice

A convention looks at the node that is entered, at its parameters, or at the variables of its body,
and the walk enters all of these nodes by itself as well. Still nothing is reported twice. The nodes
that a convention looks at (`Convention.subjects`) have distinct addresses, and they are always the
same number of steps below the node that is entered (`Convention.reach`). So the rule and the
address of a finding tell at which place it was made, and the places of a walk have distinct
addresses. What is left are the two remarks that can be made about one name, and these differ.
-/

namespace UnderscoreLint

/-- A concatenation has no duplicates if no part has, and each element tells its part. -/
theorem nodup_flatMap_of_origin {α κ δ : Type} {f : α → List κ} {as : List α} (place : α → δ)
    (origin : κ → δ) (has : (as.map place).Nodup) (hparts : ∀ a ∈ as, (f a).Nodup)
    (horigin : ∀ a ∈ as, ∀ k ∈ f a, origin k = place a) : (as.flatMap f).Nodup := by
  refine List.nodup_flatMap.2 ⟨hparts, ?_⟩
  refine (List.pairwise_map.1 has).imp_of_mem fun ha hb hne k hka hkb => hne ?_
  rw [← horigin _ ha k hka, ← horigin _ hb k hkb]

namespace Node

theorem nodup_members (n : Node) (name : Text) : ((n.members name).map address).Nodup := by
  have hitems : ∀ l : Node, l.items.Pairwise fun m m' => m.address ≠ m'.address := by
    intro l
    unfold items
    split
    · refine (pairwise_number ..).imp fun hapart heq => hapart [] [] ?_
      rw [heq]
    · exact .nil
  rw [List.Nodup, List.pairwise_map]
  unfold members
  split
  · exact (hitems _).filter _
  · exact .nil

theorem address_of_mem_members {m n : Node} {name : Text} (h : m ∈ n.members name) :
    ∃ k, m.address = n.address ++ [.key name, .index k] := by
  obtain ⟨l, hl, hm⟩ := mem_members h
  obtain ⟨-, k, -, -, hm⟩ := mem_items hm
  refine ⟨k, ?_⟩
  rw [hm, (exists_of_attr? hl).2, List.append_assoc]
  rfl

theorem isMap_of_textAttr? {n : Node} {name text : Text} (hn : n.value.RecordFree)
    (h : n.textAttr? name = some text) : n.value.isMap = true := by
  obtain ⟨v, hv, -⟩ := Option.bind_eq_some_iff.1 h
  exact hn.isMap_of_attr? hv

theorem isMap_of_name? {n : Node} (hn : n.value.RecordFree) (h : n.name?.isSome) :
    n.value.isMap = true := by
  obtain ⟨name, hname⟩ := Option.isSome_iff_exists.1 h
  exact isMap_of_textAttr? hn (Option.filter_eq_some_iff.1 hname).1

/-- A named member is a child. -/
theorem mem_children_of_mem_members {m n : Node} {name : Text} (hn : n.value.RecordFree)
    (hname : isPositionKey name = false) (hm : m.value.isMap = true) (h : m ∈ n.members name) :
    m ∈ n.children := by
  obtain ⟨l, hl, hitem⟩ := mem_members h
  have hmap := hn.isMap_of_attr? (exists_of_attr? hl).1
  exact mem_children_of_attr? hmap hname hl hm (.inr hitem)

end Node

namespace Remark

/-- Remarks about one named node that say different things. -/
def AllAbout (n : Node) (rs : List Remark) : Prop :=
  (rs.map message).Nodup ∧ ∀ r ∈ rs, r.node = n ∧ n.name?.isSome

theorem allAbout_nil (n : Node) : AllAbout n [] :=
  ⟨.nil, fun _ hr => nomatch hr⟩

theorem finish_ne_start (should should' : Bool) (n : Node) (name : Text) :
    (finish should n name).message ≠ (start should' n name).message := by
  intro h
  have htail := (Text.append_right_inj _).1 h
  revert htail
  cases should <;> cases should' <;> decide

theorem allAbout_two {n : Node} (hname : n.name?.isSome) {r r' : Remark} (hr : r.node = n)
    (hr' : r'.node = n) (hne : r.message ≠ r'.message) (a b : Bool) :
    AllAbout n ((if a then [] else [r]) ++ (if b then [r'] else [])) := by
  constructor
  · cases a <;> cases b <;> simp [hne]
  · cases a <;> cases b <;> simp [hr, hr', hname]

theorem allAbout_ofParameter (n : Node) : AllAbout n (ofParameter n) := by
  rw [ofParameter]
  cases hname : n.name? with
  | none => exact allAbout_nil n
  | some name =>
      have hsome : n.name?.isSome := by rw [hname]; rfl
      exact allAbout_two hsome rfl rfl (finish_ne_start true false n name) _ _

theorem allAbout_ofLocal (n : Node) : AllAbout n (ofLocal n) := by
  rw [ofLocal]
  cases hname : n.name? with
  | none => exact allAbout_nil n
  | some name =>
      have hsome : n.name?.isSome := by rw [hname]; rfl
      exact allAbout_two hsome rfl rfl (finish_ne_start false true n name).symm _ _

theorem allAbout_of_ofMember? {n : Node} {rs : List Remark} (h : ofMember? n = some rs) :
    AllAbout n rs := by
  rw [ofMember?] at h
  cases hname : n.name? with
  | none =>
      rw [hname] at h
      cases h
      exact allAbout_nil n
  | some name =>
      rw [hname] at h
      obtain ⟨hidden, -, rfl⟩ := Option.map_eq_some_iff.1 h
      split
      · exact allAbout_nil n
      · refine ⟨List.nodup_singleton _, fun r hr => ⟨?_, by rw [hname]; rfl⟩⟩
        rw [List.mem_singleton.1 hr]
        rfl

end Remark

namespace Convention

/-- The nodes that a convention looks at on entering a node. -/
def subjects (c : Convention) (n : Node) : List Node :=
  match c with
  | libraryMembers => [n]
  | parameters => n.members "parameters"
  | returnParameters => n.members "returnParameters"
  | localVariables =>
    (n.bodyStatements.filter Node.isDeclaration).flatMap fun s => s.members "variables"

/-- The number of steps from a node to its subjects. -/
def reach : Convention → Nat
  | libraryMembers => 0
  | parameters | returnParameters => 2
  | localVariables => 5

/-- What a convention has to say is said about its subjects, one after the other. -/
theorem exists_of_remarks? {c : Convention} {s : Surroundings} {n : Node} {rs : List Remark}
    (h : c.remarks? s n = some rs) :
    ∃ f : Node → List Remark,
      rs = (c.subjects n).flatMap f ∧ ∀ m ∈ c.subjects n, Remark.AllAbout m (f m) := by
  have hsilent : rs = [] → ∃ f : Node → List Remark,
      rs = (c.subjects n).flatMap f ∧ ∀ m ∈ c.subjects n, Remark.AllAbout m (f m) := by
    rintro rfl
    exact ⟨fun _ => [], by simp, fun m _ => Remark.allAbout_nil m⟩
  cases c with
  | libraryMembers =>
      simp only [remarks?] at h
      split at h
      · refine ⟨fun _ => rs, (List.flatMap_singleton (fun _ => rs) n).symm, ?_⟩
        intro m hm
        rw [List.mem_singleton.1 hm]
        exact Remark.allAbout_of_ofMember? h
      · exact hsilent (Option.some.inj h).symm
  | parameters | returnParameters =>
      simp only [remarks?, Option.some.injEq] at h
      split at h
      · exact ⟨_, h.symm, fun m _ => Remark.allAbout_ofParameter m⟩
      · exact hsilent h.symm
  | localVariables =>
      simp only [remarks?, Option.some.injEq] at h
      split at h
      · refine ⟨Remark.ofLocal, ?_, fun m _ => Remark.allAbout_ofLocal m⟩
        rw [← h, subjects, List.flatMap_assoc]
        rfl
      · exact hsilent h.symm

theorem exists_body_of_mem_bodyStatements {n m : Node} (h : m ∈ n.bodyStatements) :
    ∃ body, n.attr? "body" = some body ∧ m ∈ body.members "statements" := by
  unfold Node.bodyStatements at h
  split at h
  · exact ⟨_, ‹_›, h⟩
  · cases h

theorem nodup_bodyStatements (n : Node) : (n.bodyStatements.map Node.address).Nodup := by
  unfold Node.bodyStatements
  split
  · exact Node.nodup_members ..
  · exact .nil

theorem address_of_mem_subjects {c : Convention} {m n : Node} (h : m ∈ c.subjects n) :
    ∃ way, m.address = n.address ++ way ∧ way.length = c.reach := by
  cases c with
  | libraryMembers =>
      rw [List.mem_singleton.1 h]
      exact ⟨[], (List.append_nil _).symm, rfl⟩
  | parameters | returnParameters =>
      obtain ⟨k, hk⟩ := Node.address_of_mem_members h
      exact ⟨_, hk, rfl⟩
  | localVariables =>
      obtain ⟨s, hs, hm⟩ := List.mem_flatMap.1 h
      obtain ⟨body, hbody, hs⟩ := exists_body_of_mem_bodyStatements (List.mem_filter.1 hs).1
      obtain ⟨i, hi⟩ := Node.address_of_mem_members hs
      obtain ⟨k, hk⟩ := Node.address_of_mem_members hm
      refine ⟨[.key "body", .key "statements", .index i, .key "variables", .index k], ?_, rfl⟩
      rw [hk, hi, (Node.exists_of_attr? hbody).2, List.append_assoc, List.append_assoc]
      rfl

theorem nodup_subjects (c : Convention) (n : Node) : ((c.subjects n).map Node.address).Nodup := by
  cases c with
  | libraryMembers => exact List.nodup_singleton _
  | parameters | returnParameters => exact n.nodup_members _
  | localVariables =>
      rw [subjects, List.map_flatMap]
      -- The statement is found back by taking the last two steps away.
      refine nodup_flatMap_of_origin Node.address (fun a => a.dropLast.dropLast) ?_ ?_ ?_
      · exact (nodup_bodyStatements n).sublist (List.filter_sublist.map _)
      · exact fun s _ => s.nodup_members _
      · intro s _ a ha
        obtain ⟨m, hm, rfl⟩ := List.mem_map.1 ha
        obtain ⟨k, hk⟩ := Node.address_of_mem_members hm
        simp [hk]

/-- What passes to the parts of a node passes to the subjects of a convention. -/
theorem of_mem_subjects {P : Node → Prop} (hP : ∀ {m n : Node}, m.IsPart n → P n → P m)
    {c : Convention} {m n : Node} (hn : P n) (h : m ∈ c.subjects n) : P m := by
  cases c with
  | libraryMembers =>
      rw [List.mem_singleton.1 h]
      exact hn
  | parameters | returnParameters => exact Node.of_mem_members hP hn h
  | localVariables =>
      obtain ⟨s, hs, hm⟩ := List.mem_flatMap.1 h
      obtain ⟨body, hbody, hs⟩ := exists_body_of_mem_bodyStatements (List.mem_filter.1 hs).1
      have hs' := Node.of_mem_members hP (hP (Node.isPart_of_attr? hbody) hn) hs
      exact Node.of_mem_members hP hs' hm

end Convention

/-- Where there are no records, a walk enters the named subjects of the nodes that it enters. -/
theorem Place.exists_of_mem_subjects {p q : Place} (hq : q ∈ p.preorder)
    (hfree : q.node.value.RecordFree) {c : Convention} {m : Node} (hm : m ∈ c.subjects q.node)
    (hname : m.name?.isSome) : ∃ r ∈ p.preorder, r.node = m := by
  have hmember : ∀ {r : Place} {name : Text}, r ∈ p.preorder → r.node.value.RecordFree →
      Node.isPositionKey name = false → m ∈ r.node.members name →
      ∃ r ∈ p.preorder, r.node = m := by
    intro r name hr hfree hkey hm
    have hmap := Node.isMap_of_name? (Node.of_mem_members Node.IsPart.recordFree hfree hm) hname
    exact exists_of_mem_children hr (Node.mem_children_of_mem_members hfree hkey hmap hm)
  cases c with
  | libraryMembers =>
      rw [List.mem_singleton.1 hm]
      exact ⟨q, hq, rfl⟩
  | parameters | returnParameters => exact hmember hq hfree rfl hm
  | localVariables =>
      obtain ⟨s, hs, hm⟩ := List.mem_flatMap.1 hm
      obtain ⟨hs, hkind⟩ := List.mem_filter.1 hs
      obtain ⟨body, hbody, hs⟩ := Convention.exists_body_of_mem_bodyStatements hs
      -- Each node on the way down has an attribute, so it is a mapping and the walk goes into it.
      have hbodyfree := (Node.isPart_of_attr? hbody).recordFree hfree
      have hsfree := Node.of_mem_members Node.IsPart.recordFree hbodyfree hs
      have hbodymap : body.value.isMap = true := by
        obtain ⟨l, hl, -⟩ := Node.mem_members hs
        exact hbodyfree.isMap_of_attr? (Node.exists_of_attr? hl).1
      have hqmap := hfree.isMap_of_attr? (Node.exists_of_attr? hbody).1
      obtain ⟨b, hb, rfl⟩ := exists_of_mem_children hq
        (Node.mem_children_of_attr? hqmap rfl hbody hbodymap (.inl rfl))
      have hsmap := Node.isMap_of_textAttr? hsfree (eq_of_beq hkind)
      obtain ⟨t, ht, rfl⟩ := exists_of_mem_children hb
        (Node.mem_children_of_mem_members hbodyfree rfl hsmap hs)
      exact hmember ht hsfree rfl hm

/-- What tells findings apart: the rule, the address of the node, and the message. -/
def Diagnostic.identity (d : Diagnostic) : Text × Address × Text :=
  (d.ruleId, d.node.address, d.message)

namespace Place

theorem exists_of_mem_findingsOf {overrides : List (Text × Text)} {p : Place}
    {c : Convention} {d : Diagnostic} (h : d ∈ p.findingsOf overrides c) :
    d.ruleId = c.id ∧ d.node ∈ c.subjects p.node ∧ d.node.name?.isSome := by
  obtain ⟨r, hr, rfl⟩ := List.mem_map.1 h
  cases hrs : p.remarks? c with
  | none =>
      rw [hrs] at hr
      cases hr
  | some rs =>
      rw [hrs, Option.getD_some] at hr
      obtain ⟨f, rfl, hf⟩ := Convention.exists_of_remarks? hrs
      obtain ⟨m, hm, hr⟩ := List.mem_flatMap.1 hr
      obtain ⟨rfl, hname⟩ := (hf m hm).2 r hr
      exact ⟨rfl, hm, hname⟩

/-- A convention says nothing twice at a place. -/
theorem nodup_findingsOf (overrides : List (Text × Text)) (p : Place) (c : Convention) :
    ((p.findingsOf overrides c).map Diagnostic.identity).Nodup := by
  unfold findingsOf
  cases hrs : p.remarks? c with
  | none => exact .nil
  | some rs =>
      obtain ⟨f, rfl, hf⟩ := Convention.exists_of_remarks? hrs
      rw [Option.getD_some, List.map_map, List.map_flatMap]
      refine nodup_flatMap_of_origin Node.address (fun k => k.2.1) (c.nodup_subjects p.node) ?_ ?_
      · intro m hm
        refine List.Nodup.of_map (fun k => k.2.2) ?_
        rw [List.map_map]
        exact (hf m hm).1
      · intro m hm k hk
        obtain ⟨r, hr, rfl⟩ := List.mem_map.1 hk
        exact congrArg Node.address ((hf m hm).2 r hr).1

/-- The address of the node that was entered when a finding was made. -/
def origin (identity : Text × Address × Text) : Address :=
  let reach := (Convention.ofId? identity.1).elim 0 Convention.reach
  identity.2.1.take (identity.2.1.length - reach)

theorem origin_of_mem_findingsOf {overrides : List (Text × Text)} {p : Place}
    {c : Convention} {d : Diagnostic} (h : d ∈ p.findingsOf overrides c) :
    origin d.identity = p.node.address := by
  obtain ⟨hrule, hsubject, -⟩ := exists_of_mem_findingsOf h
  obtain ⟨way, hway, hlength⟩ := Convention.address_of_mem_subjects hsubject
  have hid : Convention.ofId? c.id = some c := by cases c <;> rfl
  simp [origin, Diagnostic.identity, hrule, hid, hway, hlength]

/-- The wanted conventions say nothing twice at the places of a walk. -/
theorem nodup_findings (overrides : List (Text × Text)) {cs : List Convention}
    (hcs : cs.Nodup) {top : Place} (htop : top.node.value.WellFormed) :
    ((top.preorder.flatMap fun p => cs.flatMap (p.findingsOf overrides)).map
      Diagnostic.identity).Nodup := by
  rw [List.map_flatMap]
  refine nodup_flatMap_of_origin _ origin (nodup_addresses htop) ?_ ?_
  · intro p _
    rw [List.map_flatMap]
    have hids : (cs.map Convention.id).Nodup := hcs.map fun _ _ => Convention.id_injective
    refine nodup_flatMap_of_origin Convention.id (fun k => k.1) hids ?_ ?_
    · exact fun c _ => nodup_findingsOf overrides p c
    · intro c _ k hk
      obtain ⟨d, hd, rfl⟩ := List.mem_map.1 hk
      exact ruleId_of_mem_findingsOf hd
  · intro p _ k hk
    obtain ⟨d, hd, rfl⟩ := List.mem_map.1 hk
    obtain ⟨c, -, hd⟩ := List.mem_flatMap.1 hd
    exact origin_of_mem_findingsOf hd

end Place

/-- If linting a mapping returns, no two findings agree in rule, address and message. Each finding
is attached to the value that its address leads to. If there are no records in the mapping, this
is a mapping that the walk enters. -/
theorem lintTree_nodup {s : Settings} {entries : List (Text × Value)} {log : Log}
    {ds : List Diagnostic} (hwf : (Value.map entries).WellFormed)
    (h : ((lintTree s (.map entries)).runFrom log).1 = .ok ds) :
    (ds.map fun d => (d.ruleId, d.node.address, d.message)).Nodup ∧
      (∀ d ∈ ds, (Value.map entries).at? d.node.address = some d.node.value) ∧
      ((Value.map entries).RecordFree → ∀ d ∈ ds,
        d.node.value.isMap = true ∧
          (.enter, d.node) ∈ (Node.mk [] (.map entries)).script) := by
  let top := Place.top ⟨[], .map entries⟩
  have hds : ds = top.preorder.flatMap fun p => s.conventions.flatMap (p.findingsOf s.overrides) :=
    (eq_found_of_lintTree rfl h).trans (s.found_answers _)
  have hmem : ∀ d ∈ ds, ∃ p ∈ top.preorder, ∃ c : Convention,
      d.node ∈ c.subjects p.node ∧ d.node.name?.isSome := by
    intro d hd
    rw [hds] at hd
    obtain ⟨p, hp, hd⟩ := List.mem_flatMap.1 hd
    obtain ⟨c, -, hd⟩ := List.mem_flatMap.1 hd
    exact ⟨p, hp, c, (Place.exists_of_mem_findingsOf hd).2⟩
  refine ⟨?_, ?_, ?_⟩
  · rw [hds]
    exact Place.nodup_findings s.overrides (List.Nodup.filter _ (by decide)) hwf
  · intro d hd
    obtain ⟨p, hp, c, hsubject, -⟩ := hmem d hd
    have hpass : ∀ {m n : Node}, m.IsPart n → n.IsAt (.map entries) → m.IsAt (.map entries) :=
      fun h hn => h.isAt hn
    have hp := Place.forall_preorder_of_isPart hpass hwf (rfl : top.node.IsAt _) p hp
    exact Convention.of_mem_subjects hpass hp hsubject
  · intro hfree d hd
    obtain ⟨p, hp, c, hsubject, hname⟩ := hmem d hd
    have hpfree := Place.forall_preorder_of_isPart Node.IsPart.recordFree hwf hfree p hp
    have hdfree := Convention.of_mem_subjects Node.IsPart.recordFree hpfree hsubject
    obtain ⟨q, hq, hqd⟩ := Place.exists_of_mem_subjects hp hpfree hsubject hname
    refine ⟨Node.isMap_of_name? hdfree hname, ?_⟩
    rw [← hqd]
    exact Place.enter_mem_script hq

/-- A function with a loop in its body: the parameter is looked at from the function, and the
variable only from the loop. -/
def nestedLoop : List (Text × Value) := [
  ("type", .text "FunctionDefinition"), ("name", .text "f"),
  ("parameters", .list [.map [("type", .text "VariableDeclaration"), ("name", .text "_x")]]),
  ("body", .map [("type", .text "Block"), ("statements", .list [.null, .map [
    ("type", .text "WhileStatement"),
    ("body", .map [("type", .text "Block"), ("statements", .list [.map [
      ("type", .text "VariableDeclarationStatement"),
      ("variables", .list [.map [
        ("type", .text "VariableDeclaration"), ("name", .text "i_")]])]])])]])])]

theorem lintTree_nodup_nestedLoop :
    (Value.map nestedLoop).WellFormed ∧ (Value.map nestedLoop).RecordFree ∧
    ∃ ds, ((lintTree ⟨none, []⟩ (.map nestedLoop)).runFrom #[]).1 = .ok ds ∧
      ds.map Diagnostic.message = (["'_x' should end with _", "'_x' should not start with _",
        "'i_' should start with _", "'i_' should not end with _"] : List Text) ∧
      (ds.map fun d => (d.ruleId, d.node.address, d.message)).Nodup ∧
      ∀ d ∈ ds, (.enter, d.node) ∈ (Node.mk [] (.map nestedLoop)).script := by
  have hwf : (Value.map nestedLoop).WellFormed := by
    simp [nestedLoop, Value.text, Value.null]
  have hfree : (Value.map nestedLoop).RecordFree := by
    simp [nestedLoop, Value.text, Value.null]
  have hmessages : ((lintTree ⟨none, []⟩ (.map nestedLoop)).runFrom #[]).1.toOption.map
      (List.map Diagnostic.message) =
        some (["'_x' should end with _", "'_x' should not start with _",
          "'i_' should start with _", "'i_' should not end with _"] : List Text) := by
    decide +kernel
  obtain ⟨ds, hds, hmessages⟩ := exists_ok_of_toOption hmessages
  obtain ⟨hnodup, -, hreached⟩ := lintTree_nodup hwf hds
  exact ⟨hwf, hfree, ds, hds, hmessages, hnodup, fun d hd => (hreached hfree d hd).2⟩

end UnderscoreLint
