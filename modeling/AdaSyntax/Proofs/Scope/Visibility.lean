import AdaSyntax.Proofs.Scope.Places
import AdaSyntax.Proofs.Scope.Stack

/-!
What a declaration makes visible, and for how long. A declaration decides anew what its own name stands for, and leaves
all other names alone; a region takes everything with it that was declared in it.
-/

namespace AdaSyntax

namespace SymbolTable

variable {table later : SymbolTable} {name : Name} {declaration : Declaration}

theorem WellFormed.declare_cases (h : table.WellFormed) (declaration : Declaration) :
    ((table.declare declaration).2.2 = (table.reserve declaration).2.putBinding declaration.name ⟨table.symbols.size⟩ ∧
        ∀ existing, (table.declare declaration).2.1 ≠ .duplicate existing) ∨
      ∃ existing, (table.declare declaration).2 = (.duplicate existing, (table.reserve declaration).2) ∧
        (table.innermost.bindings.get declaration.name).head? = some existing := by
  have hlast : ((table.reserve declaration).2.innermost.bindings.get declaration.name).getLast? ≠
      some ⟨table.symbols.size⟩ := by
    intro hlast
    have hlt := h.filed.lt_size (List.mem_of_getLast? hlast)
    exact Nat.lt_irrefl _ hlt
  exact bind_cases (table.symbol?_reserve declaration) hlast

theorem Filed.resolve_innermost_grown (h : table.Filed) (hgrown : table.symbols.toList <+: later.symbols.toList)
    (hpublished : ∀ owner, later.published? owner = table.published? owner)
    (houter : later.outerPlaces = table.outerPlaces)
    (hget : later.innermost.bindings.get name = table.innermost.bindings.get name) :
    later.resolve name = table.resolve name := by
  have hdenotes := h.denotes_resolve name
  have hplaces : ∀ place ∈ table.outerPlaces, later.lookupAt name place = table.lookupAt name place :=
    fun place hplace => h.lookupAt_grown hgrown hpublished name place
      (table.places_eq ▸ List.mem_cons_of_mem _ hplace)
  rw [resolve_or] at hdenotes
  rw [resolve_or, resolve_or, houter, hget, findSome?_congr hplaces]
  exact resolution_grown hdenotes hgrown

theorem WellFormed.resolve_declare_of_ne (h : table.WellFormed) (hname : name ≠ declaration.name) :
    (table.declare declaration).2.2.resolve name = table.resolve name := by
  have hgrown : table.symbols.toList <+: (table.reserve declaration).2.symbols.toList :=
    (table.reserve_revertsTo declaration).symbols
  rcases h.declare_cases declaration with ⟨heq, -⟩ | ⟨existing, heq, -⟩ <;> rw [heq]
  · refine h.filed.resolve_innermost_grown hgrown (fun _ => rfl) rfl ?_
    exact Bindings.get_add_of_ne table.innermost.bindings _ hname
  · exact h.filed.resolve_grown hgrown rfl (fun _ => rfl) name

theorem resolve_putBinding {id : SymbolId} : (table.putBinding name id).resolve name = table.resolution (some id) := by
  have hlast : ((table.putBinding name id).innermost.bindings.get name).getLast? = some id := by
    simp [putBinding, Region.bind]
  rw [resolve_or, hlast, Option.some_or]
  rfl

/-- The change publishes nothing and leaves more regions open than there are in `base`. -/
def Confines (base table : SymbolTable) (made : TableChange) : Prop :=
  (∀ owner, made.mayPublishFor owner = false) ∧ base.depth < (table.change made).depth

theorem Above.run (h : table.Proper) (kind : RegionKind) (owner : Option SymbolId) {commands : List TableCommand}
    (hconfined : MarkedTable.Allows table.Confines ⟨table.openRegion kind owner, []⟩ commands) :
    Above table (MarkedTable.run ⟨table.openRegion kind owner, []⟩ commands).table := by
  have hlasts : MarkedTable.Lasts (Above table) table.Confines :=
    ⟨Above.proper, fun habove _ => habove.of_counter _, fun habove hconfines => habove.change hconfines.1 hconfines.2⟩
  have hmarks : MarkedTable.Traces (Above table) (table.openRegion kind owner) [] := trivial
  exact (hlasts.run (.openRegion h kind owner) hmarks hconfined).1

theorem Above.resolve_closeRegion {closed : ClosedRegion} (h : Above table later) (hfiled : table.Filed)
    {after : SymbolTable} (hdepth : later.depth = table.depth + 1) (hclose : later.closeRegion = some (closed, after)) :
    after.resolve name = table.resolve name := by
  have hafter : later.change .closeRegion = after := by simp only [SymbolTable.change, hclose]
  have hregions := h.closeRegion hdepth
  have hsymbols := later.closeRegion_symbols
  have hcontents := later.closeRegion_contents
  rw [hafter] at hregions hsymbols hcontents
  refine hfiled.resolve_grown (hsymbols ▸ h.symbols) hregions (fun owner => ?_) name
  rw [published?, hcontents]
  exact h.published owner

/-- A declaration changes what its own name stands for, if it is not turned down, and nothing else. Whatever is done
while a region is open, without publishing anything, has changed nothing when the region has closed. -/
theorem declaration_local (hreachable : table.Reachable) (declaration : Declaration) :
    (∀ name, name ≠ declaration.name → (table.declare declaration).2.2.resolve name = table.resolve name) ∧
      (match (table.declare declaration).2.1 with
        | .new | .overload | .completion _ => (table.declare declaration).2.2.resolve declaration.name =
            ⟨some (table.declare declaration).1, declaration.kind⟩
        | .duplicate existing =>
          (table.declare declaration).2.2.resolve declaration.name = table.resolve declaration.name ∧
            (table.innermost.bindings.get declaration.name).head? = some existing) ∧
      ∀ kind owner commands,
        let opened : MarkedTable := ⟨table.openRegion kind owner, []⟩
        opened.Allows table.Confines commands → (opened.run commands).table.depth = table.depth + 1 →
          ∃ closed later, (opened.run commands).table.closeRegion = some (closed, later) ∧
            ∀ name, later.resolve name = table.resolve name := by
  have hwell := hreachable.wellFormed
  refine ⟨fun name hname => hwell.resolve_declare_of_ne hname, ?_, ?_⟩
  · rcases hwell.declare_cases declaration with ⟨heq, hnew⟩ | ⟨existing, heq, hfirst⟩
    · have hself : (table.declare declaration).2.2.resolve declaration.name =
          ⟨some (table.declare declaration).1, declaration.kind⟩ := by
        rw [heq, resolve_putBinding, resolution, kindOf, table.symbol?_reserve]
        rfl
      split
      · exact hself
      · exact hself
      · exact hself
      · rename_i existing hduplicate
        exact absurd hduplicate (hnew existing)
    · have hgrown : table.symbols.toList <+: (table.reserve declaration).2.symbols.toList :=
        (table.reserve_revertsTo declaration).symbols
      rw [heq]
      exact ⟨hwell.filed.resolve_grown hgrown rfl (fun _ => rfl) _, hfirst⟩
  · intro kind owner commands opened hconfined hdepth
    have habove := Above.run hwell.proper kind owner hconfined
    have hopen : 1 < (opened.run commands).table.depth := hdepth ▸ Nat.succ_lt_succ (Nat.succ_pos _)
    obtain ⟨later, hclose⟩ := closeRegion_of_depth hopen
    exact ⟨_, later, hclose, fun name => habove.resolve_closeRegion hwell.filed hdepth hclose⟩

/-- A use clause makes a type visible. In a region of its own an object hides it until the region closes, while a
function is declared once more in front of that. -/
theorem declaration_local_useClause :
    let built : List TableCommand :=
      [.change (.declare { name := ⟨"P"⟩, kind := .package }), .change (.openRegion .package (some ⟨0⟩)),
        .change (.declare { name := ⟨"T"⟩, kind := .type }), .change .closeRegion,
        .change (.publish ⟨0⟩ { visible := [⟨1⟩] }), .change (.openRegion .block none),
        .change (.addImport ⟨0⟩ .use), .change (.declare { name := ⟨"F"⟩, kind := .function })]
    let table := (MarkedTable.start.run built).table
    let overload : Declaration := { name := ⟨"F"⟩, kind := .function }
    let opened : MarkedTable := ⟨table.openRegion .subprogram none, []⟩
    let inside : List TableCommand :=
      [.change (.declare { name := ⟨"T"⟩, kind := .object }), .mark, .change (.openRegion .loop none),
        .change (.declare overload), .rollback, .change (.openRegion .block none), .change .closeRegion]
    table.Reachable ∧ table.resolve ⟨"T"⟩ = ⟨some ⟨1⟩, .type⟩ ∧ (table.declare overload).2.1 = .overload ∧
      (table.declare overload).2.2.resolve ⟨"F"⟩ = ⟨some ⟨3⟩, .function⟩ ∧
      (table.declare overload).2.2.resolve ⟨"T"⟩ = table.resolve ⟨"T"⟩ ∧ opened.Allows table.Confines inside ∧
      (opened.run inside).table.resolve ⟨"T"⟩ = ⟨some ⟨3⟩, .object⟩ ∧
      ∃ closed later, (opened.run inside).table.closeRegion = some (closed, later) ∧
        later.resolve ⟨"T"⟩ = table.resolve ⟨"T"⟩ := by
  intro built table overload opened inside
  have hlegal : MarkedTable.start.Legal built := by
    simp only [built, MarkedTable.Legal, TableCommand.Legal, TableChange.Legal, Has]
    decide
  have hreachable : table.Reachable := ⟨built, hlegal, rfl⟩
  have hconfined : opened.Allows table.Confines inside :=
    ⟨⟨fun _ => rfl, by decide⟩, trivial, ⟨fun _ => rfl, by decide⟩, ⟨fun _ => rfl, by decide⟩, trivial,
      ⟨fun _ => rfl, by decide⟩, ⟨fun _ => rfl, by decide⟩, trivial⟩
  have hoverload : (table.declare overload).2.1 = .overload := by decide
  obtain ⟨hothers, hself, hinside⟩ := declaration_local hreachable overload
  rw [hoverload] at hself
  obtain ⟨closed, later, hclose, hresolve⟩ := hinside .subprogram none inside hconfined (by decide)
  exact ⟨hreachable, by decide, hoverload, hself, hothers _ (by decide), hconfined, by decide, closed, later, hclose,
    hresolve _⟩

end SymbolTable

end AdaSyntax
