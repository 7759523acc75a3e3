import AdaSyntax.Proofs.Compilation
import AdaSyntax.Proofs.Parser.Prior

/-!
The references between the tree and the symbol table of a compilation. Every declared entity has its node,
and every name that stands for an entity stands for one of that name, declared further up in the text. Objects and
the like are declared behind the last of their names, so nothing in a declaration of theirs stands for them.
-/

namespace AdaSyntax

/-- Declarations that are complete when they declare their entities. -/
def Decl.declaresLast {ρ : Type} : Decl ρ → Bool
  | object .. | number .. | component .. | discriminant .. | parameter .. | formalObject .. | formalType ..
  | subtype .. | instantiation .. | renames _ (.object _) _ | renames _ .exception _ | renames _ .package _ => true
  | _ => false

namespace SymbolTable

def Preset (table : SymbolTable) : Prop :=
  ∀ symbol ∈ table.symbols, symbol.node = none ∧ symbol.range = .empty 0

namespace Preset

theorem empty : SymbolTable.empty.Preset := by simp [Preset, SymbolTable.empty]

theorem declare {table : SymbolTable} {declaration : Declaration} (h : table.Preset)
    (hnode : declaration.node = none) (hrange : declaration.range = .empty 0) :
    (table.declare declaration).2.2.Preset := by
  intro symbol hsymbol
  rw [declare_symbols] at hsymbol
  rcases Array.mem_push.mp hsymbol with hsymbol | rfl
  · exact h symbol hsymbol
  · exact ⟨hnode, hrange⟩

theorem foldl_declare {table : SymbolTable} {declarations : List Declaration} (h : table.Preset)
    (hall : ∀ entity ∈ declarations, entity.node = none ∧ entity.range = .empty 0) :
    (declarations.foldl (fun table entity => (table.declare entity).2.2) table).Preset := by
  induction declarations generalizing table with
  | nil => exact h
  | cons entity rest ih =>
    obtain ⟨hentity, hrest⟩ := List.forall_mem_cons.mp hall
    exact ih (h.declare hentity.1 hentity.2) hrest

theorem addPredefined {table : SymbolTable} (h : table.Preset) : table.addPredefined.2.Preset := by
  have hall : ∀ entity ∈ Predefined.declarations, entity.node = none ∧ entity.range = .empty 0 := by
    simp only [Predefined.declarations, List.mem_append, List.mem_map]
    rintro entity ((((⟨_, _, rfl⟩ | ⟨_, _, rfl⟩) | ⟨_, _, rfl⟩) | ⟨_, _, rfl⟩) | ⟨_, _, rfl⟩) <;> exact ⟨rfl, rfl⟩
  unfold SymbolTable.addPredefined
  generalize Predefined.declarations = declarations at hall
  exact (h.foldl_declare hall).declare rfl rfl

theorem predefined : SymbolTable.predefined.Preset := empty.addPredefined

end Preset

end SymbolTable

namespace Parser

variable {cursor : Cursor} {options : Options}

theorem new_symbols (cursor : Cursor) (options : Options) :
    (Parser.new cursor options).symbols = .empty ∨ (Parser.new cursor options).symbols = .predefined := by
  unfold Parser.new
  dsimp only
  split
  · exact .inr rfl
  · exact .inl rfl

theorem new_linked : (Parser.new cursor options).Linked := by
  have hpreset : (Parser.new cursor options).symbols.Preset := by
    rcases new_symbols cursor options with heq | heq <;> rw [heq]
    · exact .empty
    · exact .predefined
  refine ⟨?_, fun symbol hsymbol node hnode => ?_, fun symbol hsymbol => ?_, nofun⟩
  · rcases new_symbols cursor options with heq | heq <;> rw [heq]
    · exact .empty
    · exact SymbolTable.Filed.empty.addPredefined
  · cases (hpreset symbol hsymbol).1.symm.trans hnode
  · rw [(hpreset symbol hsymbol).2]
    exact Nat.zero_le _

theorem compile_linked {compilation : Compilation} {lexical : List Diagnostic}
    (h : (Parser.new cursor options).compile lexical = .ok compilation)
    (hordered : Token.Ordered cursor.tokens.toList) :
    ∃ parser : Parser, parser.Linked ∧ compilation.tree = parser.tree ∧
      compilation.symbols = parser.symbols := by
  obtain ⟨units, later, nodes, hcourse, rfl⟩ := compile_course h
  have hlinked := hcourse.linked (Parser.Reachable.new _ _).proper hordered new_linked
  exact ⟨_, hlinked.push fun use huse => (by cases huse), rfl, rfl⟩

theorem new_prior : (Parser.new cursor options).Prior := by
  have hempty : ∀ node, (Parser.new cursor options).tree.payload node = .placeholder := fun node => by
    simp [Parser.new, Tree.empty, Tree.payload, Tree.get?]
  constructor
  · intro node id declaring hname
    rw [hempty] at hname
    cases hname
  · intro node hfilled
    rw [hempty] at hfilled
    cases hfilled
  · intro loop range id hrange
    rw [hempty] at hrange
    cases hrange

theorem compile_prior {compilation : Compilation} {lexical : List Diagnostic}
    (h : (Parser.new cursor options).compile lexical = .ok compilation)
    (hordered : Token.Ordered cursor.tokens.toList) :
    ∃ parser : Parser, parser.Linked ∧ parser.Prior ∧ compilation.tree = parser.tree ∧
      compilation.symbols = parser.symbols := by
  obtain ⟨units, later, nodes, hcourse, rfl⟩ := compile_course h
  have hproper := (Parser.Reachable.new cursor options).proper
  have hbuilt := hcourse.built hproper
  have hlinked := hcourse.linked hproper hordered new_linked
  have hprior := (hcourse.ranged hproper hordered new_linked new_prior).prior
  obtain ⟨node, hrooted⟩ := complete_rooted lexical hbuilt
  refine ⟨_, hlinked.push fun use huse => (by cases huse), hprior.push hlinked fun _ => ?_, rfl, rfl⟩
  exact ⟨nodes, ⟨hrooted.forest, hrooted.nodup⟩, fun other hother => (hbuilt.lt_of_mem hother).2⟩

end Parser

namespace Compilation

/-- Tree and symbol table refer to each other as they should. -/
structure Referential (compilation : Compilation) : Prop where
  /-- The declaring node of an entity lies around its name. -/
  declared : ∀ id symbol node, compilation.symbols.symbol? id = some symbol → symbol.node = some node →
    ∃ entry, compilation.tree.get? node = some entry ∧ entry.payload.isPlaceholder = false ∧
      entry.range.contains symbol.range = true
  /-- A name stands for an entity of this name and class, which was declared in front of it. -/
  named : ∀ node range use id, compilation.tree.get? node = some ⟨range, .name use⟩ →
    use.symbol? = some id → ∃ symbol, compilation.symbols.symbol? id = some symbol ∧
      use.written? = some symbol.name ∧ use.classification = symbol.kind ∧ symbol.range.stop ≤ range.start
  filed : compilation.symbols.Filed

theorem references_sound {options : Options} {source : String} {compilation : Compilation}
    (h : ofSource source options = .ok compilation) : compilation.Referential := by
  obtain ⟨parser, hlinked, htree, hsymbols⟩ := Parser.compile_linked h (Token.wellFormed_ordered source)
  obtain ⟨high, node, nodes, hrooted⟩ := Parser.compile_rooted h
  refine ⟨fun id symbol node hsymbol hnode => ?_, fun node range use id hname hid => ?_, ?_⟩
  · rw [hsymbols] at hsymbol
    obtain ⟨entry, hentry, hstart, hstop⟩ :=
      hlinked.declared symbol (Array.mem_of_getElem? hsymbol) node hnode
    rw [← htree] at hentry
    have hfilled := hrooted.whole.filled node (Array.getElem?_eq_some_iff.mp hentry).1
    rw [Tree.payload_of_get? hentry] at hfilled
    refine ⟨entry, hentry, hfilled, ?_⟩
    simp only [Range.contains, Bool.and_eq_true, decide_eq_true_eq]
    exact ⟨hstart, hstop hfilled⟩
  · rw [htree] at hname
    rw [hsymbols]
    exact (hlinked.names node range use hname).known id hid
  · exact hsymbols ▸ hlinked.filed

theorem references_sound_loop :
    ∃ compilation, ofSource "procedure P is T : Integer; begin L : loop T := T + 1; exit L; end loop L; end P;" {} =
      .ok compilation ∧ compilation.Referential := by
  obtain ⟨compilation, h⟩ := exists_of_isOk
    (show (ofSource "procedure P is T : Integer; begin L : loop T := T + 1; exit L; end loop L; end P;" {}).isOk = true by
      decide +kernel)
  exact ⟨compilation, h, references_sound h⟩

def Uses (compilation : Compilation) (root : NodeId) (id : SymbolId) : Prop :=
  ∃ node ∈ (compilation.tree.preorder root).toList, (compilation.tree.payload node).classify.1 = some id

/-- No declaration of an object or the like sees what it declares, and no range of a loop sees the parameter. -/
structure Unseen (compilation : Compilation) : Prop where
  declarations : ∀ node part, compilation.tree.payload node = .decl part → part.declaresLast = true →
    ∀ id, compilation.Uses node id → ∃ symbol, compilation.symbols.symbol? id = some symbol ∧
      symbol.node ≠ some node
  ranges : ∀ loop range, (compilation.tree.payload loop).loopRange? = some range →
    ∀ id, compilation.Uses range id → ∃ symbol, compilation.symbols.symbol? id = some symbol ∧
      ¬(symbol.kind = .loopParameter ∧ symbol.node = some loop)

theorem declarations_unseen {options : Options} {source : String} {compilation : Compilation}
    (h : ofSource source options = .ok compilation) : compilation.Unseen := by
  obtain ⟨parser, hlinked, hprior, htree, hsymbols⟩ := Parser.compile_prior h (Token.wellFormed_ordered source)
  have hknown : ∀ name id, (parser.tree.payload name).classify.1 = some id →
      ∃ symbol, parser.symbols.symbol? id = some symbol := fun name id hname =>
    ⟨_, Array.getElem?_eq_getElem (hlinked.lt_of_classify hname)⟩
  constructor
  · rintro node part hpart hlast id ⟨name, hmem, hname⟩
    rw [htree] at hpart hmem hname
    rw [hsymbols]
    have hkind : (parser.tree.payload node).isReservable = false := by
      rw [hpart]
      cases part with
      | renames written kind renamed => cases kind <;> first | rfl | cases hlast
      | _ => first | rfl | cases hlast
    obtain ⟨below, hsubtree, hbelow⟩ := hprior.above node (by rw [hpart]; rfl) hkind
    rw [hsubtree.preorder_eq] at hmem
    obtain ⟨symbol, hsymbol⟩ := hknown name id hname
    refine ⟨symbol, hsymbol, fun hnode => ?_⟩
    rcases List.mem_cons.mp hmem with rfl | hmem
    · rw [hpart] at hname
      cases hname
    · have holder := hprior.names name id node hname ⟨symbol, hsymbol, hnode⟩
      exact Nat.lt_asymm holder (hbelow name hmem)
  · rintro loop range hrange id ⟨name, hmem, hname⟩
    rw [htree] at hrange hmem hname
    rw [hsymbols]
    obtain ⟨symbol, hsymbol⟩ := hknown name id hname
    refine ⟨symbol, hsymbol, fun ⟨hkind, hnode⟩ => ?_⟩
    obtain ⟨nodes, hsubtree, hnodes⟩ := hprior.ranges loop range id hrange ⟨symbol, hsymbol, hkind, hnode⟩
    rw [hsubtree.preorder_eq] at hmem
    exact Nat.lt_irrefl _ (hnodes name hmem id hname)

def redeclared : String :=
  "procedure P (X : T) is package Q is X : T := X; end; begin for X in X .. 9 loop null; end loop; end;"

/-- Both names stand for the outer entity. -/
theorem declarations_unseen_redeclared :
    ∃ compilation, ofSource redeclared { predefined := false } = .ok compilation ∧ compilation.Unseen ∧
      [⟨7⟩, ⟨10⟩].map (fun name => (compilation.tree.payload name).classify) =
        [(some ⟨1⟩, .parameter), (some ⟨1⟩, .parameter)] ∧
      [⟨1⟩, ⟨3⟩, ⟨4⟩].map (fun id => (compilation.symbols.symbol? id).bind (·.node)) =
        [some ⟨2⟩, some ⟨8⟩, some ⟨9⟩] := by
  have hview : (ofSource redeclared { predefined := false }).toOption.map (fun compilation => decide
      ([⟨7⟩, ⟨10⟩].map (fun name => (compilation.tree.payload name).classify) =
          [(some ⟨1⟩, .parameter), (some ⟨1⟩, .parameter)] ∧
        [⟨1⟩, ⟨3⟩, ⟨4⟩].map (fun id => (compilation.symbols.symbol? id).bind (·.node)) =
          [some ⟨2⟩, some ⟨8⟩, some ⟨9⟩])) = some true := by decide +kernel
  obtain ⟨compilation, h, hfacts⟩ := exists_of_map hview
  exact ⟨compilation, h, declarations_unseen h, of_decide_eq_true hfacts⟩

end Compilation

end AdaSyntax
