import AdaSyntax.Token.Basic

namespace AdaSyntax

namespace ReservedWord

theorem table_ascending {first second : Nat} (hfirst : first < table.size) (hsecond : second < table.size)
    (hless : first < second) : compare (bytesOf table[first].1) (bytesOf table[second].1) = .lt := by
  have hall : table.toList.Pairwise fun entry later => compare (bytesOf entry.1) (bytesOf later.1) = .lt := by
    decide +kernel
  have hpair := List.pairwise_iff_getElem.mp hall first second
    (by rwa [Array.length_toList]) (by rwa [Array.length_toList]) hless
  rwa [Array.getElem_toList, Array.getElem_toList] at hpair

theorem table_isReserved : ∀ entry ∈ table, entry.2.isReserved := by
  simp only [← Array.mem_toList_iff]
  decide +kernel

theorem length_le_longest : ∀ entry ∈ table, (bytesOf entry.1).length ≤ longest := by
  simp only [← Array.mem_toList_iff]
  decide +kernel

theorem table_small : ∀ entry ∈ table, ∀ letter ∈ entry.1.toList, letter.isLower := by
  simp only [← Array.mem_toList_iff, ← List.all_eq_true]
  decide +kernel

theorem kind_unique {word : String} {kind other : TokenKind} (h : (word, kind) ∈ table) (h' : (word, other) ∈ table) :
    kind = other := by
  obtain ⟨first, hfirst, heq⟩ := Array.mem_iff_getElem.mp h
  obtain ⟨second, hsecond, heq'⟩ := Array.mem_iff_getElem.mp h'
  have hself : compare (bytesOf word) (bytesOf word) = .eq := Std.ReflCmp.compare_self
  rcases Nat.lt_trichotomy first second with hless | rfl | hless
  · have hlt := table_ascending hfirst hsecond hless
    rw [heq, heq', hself] at hlt
    cases hlt
  · exact congrArg Prod.snd (heq.symm.trans heq')
  · have hlt := table_ascending hsecond hfirst hless
    rw [heq, heq', hself] at hlt
    cases hlt

def Locates (bytes : List UInt8) : Option TokenKind → Prop
  | some kind => ∃ word, (word, kind) ∈ table ∧ bytesOf word = bytes
  | none => ∀ entry ∈ table, bytesOf entry.1 ≠ bytes

theorem search_step (buffer : Buffer longest) {length : Nat} (hlength : length ≤ longest) {low high : Nat}
    (hlow : low < high) (hhigh : high ≤ table.size) (hmiddle : (low + high) / 2 < table.size) :
    search buffer length low high hhigh =
      match compare (bytesOf table[(low + high) / 2].1) (buffer.contents.take length) with
      | .eq => .ok (some table[(low + high) / 2].2)
      | .lt => search buffer length ((low + high) / 2 + 1) high hhigh
      | .gt => search buffer length low ((low + high) / 2) (Nat.le_of_lt hmiddle) := by
  rw [search, dif_pos hlow]
  dsimp only
  rw [buffer.order_eq (Nat.zero_le _) hlength, List.drop_zero]
  exact Buffer.ok_bind _ _

theorem search_locates (buffer : Buffer longest) {length : Nat} (hlength : length ≤ longest) {low high : Nat}
    (hle : low ≤ high) (hhigh : high ≤ table.size)
    (hbelow : ∀ index (_ : index < table.size), index < low →
      compare (bytesOf table[index].1) (buffer.contents.take length) = .lt)
    (habove : ∀ index (_ : index < table.size), high ≤ index →
      compare (bytesOf table[index].1) (buffer.contents.take length) = .gt) :
    ∃ found, search buffer length low high hhigh = .ok found ∧ Locates (buffer.contents.take length) found := by
  induction low, high, hhigh using search.induct with
  | case1 low high hhigh hlt middle hmiddle ihabove ihbelow =>
    have hsize : middle < table.size := Nat.lt_of_lt_of_le hmiddle hhigh
    rw [search_step buffer hlength hlt hhigh hsize]
    cases horder : compare (bytesOf table[middle].1) (buffer.contents.take length) with
    | eq => exact ⟨_, rfl, table[middle].1, Array.getElem_mem hsize, Std.LawfulEqOrd.eq_of_compare horder⟩
    | lt =>
      -- the words up to the middle come before the text as well
      refine ihabove hmiddle (fun index hindex hless => ?_) habove
      rcases Nat.lt_or_eq_of_le (Nat.le_of_lt_succ hless) with hless | rfl
      · exact Std.TransCmp.lt_trans (table_ascending hindex hsize hless) horder
      · exact horder
    | gt =>
      -- and here those behind it come behind the text
      refine ihbelow (by omega) hbelow fun index hindex hge => ?_
      rcases Nat.lt_or_eq_of_le hge with hless | rfl
      · exact Std.TransCmp.gt_trans (Std.OrientedCmp.gt_iff_lt.mpr (table_ascending hsize hindex hless)) horder
      · exact horder
  | case2 low high hhigh hge =>
    refine ⟨none, by rw [search, dif_neg hge], fun entry hentry heq => ?_⟩
    obtain ⟨index, hindex, rfl⟩ := Array.mem_iff_getElem.mp hentry
    have hself : compare (bytesOf table[index].1) (buffer.contents.take length) = .eq :=
      Std.LawfulEqCmp.compare_eq_iff_eq.mpr heq
    rcases Nat.lt_or_ge index low with hless | hless
    · rw [hbelow index hindex hless] at hself
      cases hself
    · rw [habove index hindex (Nat.le_trans (Nat.le_of_not_lt hge) hless)] at hself
      cases hself

theorem lookup_locates (text : String) :
    ∃ found, lookup text = .ok found ∧ Locates ((bytesOf text).map lowered) found := by
  unfold lookup
  dsimp only
  split
  · rename_i hlong
    -- a text that is turned away is longer than every word
    refine ⟨none, rfl, fun entry hentry heq => ?_⟩
    have hlength := length_le_longest entry hentry
    rw [heq, List.length_map] at hlength
    exact Nat.not_le.mpr hlong hlength
  · rename_i hshort
    have hfits : (bytesOf text).length ≤ longest := Nat.le_of_not_lt hshort
    obtain ⟨copied, hcopy, hcopied⟩ := Buffer.zero.copy_eq (by rwa [Nat.zero_add] : 0 + (bytesOf text).length ≤ longest)
    obtain ⟨small, htransform, hsmall⟩ := copied.transform_eq lowered hfits
    have hcontents : small.contents.take (bytesOf text).length = (bytesOf text).map lowered := by
      rw [hsmall, hcopied, List.take_zero, List.nil_append, List.take_left, List.take_left' (List.length_map _)]
    obtain ⟨found, hsearch, hfound⟩ := search_locates small hfits (Nat.zero_le _) (Nat.le_refl _)
      (fun _ _ hless => absurd hless (Nat.not_lt_zero _)) (fun _ hindex hge => absurd hindex (Nat.not_lt.mpr hge))
    refine ⟨found, ?_, hcontents ▸ hfound⟩
    rw [hcopy, Buffer.ok_bind, htransform, Buffer.ok_bind, hsearch]

theorem lookup_eq (text : String) : lookup text = .ok (kind? text) := by
  obtain ⟨found, hfound, -⟩ := lookup_locates text
  simp only [kind?, hfound]

theorem kind?_locates (text : String) : Locates ((bytesOf text).map lowered) (kind? text) := by
  obtain ⟨found, hlookup, hfound⟩ := lookup_locates text
  rw [lookup_eq, Except.ok.injEq] at hlookup
  rwa [hlookup]

theorem bytesOf_eq_flatMap (text : String) : bytesOf text = text.toList.flatMap String.utf8EncodeChar := by
  obtain ⟨cs, rfl⟩ : ∃ cs, text = String.ofList cs := ⟨text.toList, String.ofList_toList.symm⟩
  rw [bytesOf, String.toUTF8_eq_toByteArray, String.toByteArray_ofList, String.toList_ofList]
  exact List.toList_data_toByteArray

theorem bytesOf_inj {text other : String} : bytesOf text = bytesOf other ↔ text = other := by
  refine ⟨fun h => ?_, congrArg bytesOf⟩
  exact String.toByteArray_inj.mp (ByteArray.ext (Array.toList_inj.mp h))

theorem le_of_mem_utf8EncodeChar {c : Char} (h : 0x80 ≤ c.toNat) {byte : UInt8}
    (hbyte : byte ∈ String.utf8EncodeChar c) : 0x80 ≤ byte.toNat := by
  have hlead (value : Nat) : value < 256 → 0x80 ≤ value → 0x80 ≤ (UInt8.ofNat value).toNat := by
    intro hlt hle
    rwa [UInt8.toNat_ofNat', Nat.mod_eq_of_lt hlt]
  have hascii : ¬c.val.toNat ≤ 127 := Nat.not_le.mpr h
  unfold String.utf8EncodeChar at hbyte
  dsimp only at hbyte
  rw [if_neg hascii] at hbyte
  split at hbyte
  · simp only [List.mem_cons, List.not_mem_nil, or_false] at hbyte
    rcases hbyte with rfl | rfl <;> exact hlead _ (by omega) (by omega)
  · split at hbyte
    · simp only [List.mem_cons, List.not_mem_nil, or_false] at hbyte
      rcases hbyte with rfl | rfl | rfl <;> exact hlead _ (by omega) (by omega)
    · simp only [List.mem_cons, List.not_mem_nil, or_false] at hbyte
      rcases hbyte with rfl | rfl | rfl | rfl <;> exact hlead _ (by omega) (by omega)

theorem lowered_eq_self {byte : UInt8} (h : 0x80 ≤ byte.toNat) : lowered byte = byte := by
  have hlarge : ¬byte ≤ 0x5A := by
    rw [UInt8.le_iff_toNat_le]
    exact Nat.not_le.mpr (Nat.lt_of_lt_of_le (by decide) h)
  simp [lowered, hlarge]

theorem toLower_eq_self {c : Char} (h : 0x80 ≤ c.toNat) : c.toLower = c := by
  refine dif_neg fun hcapital => ?_
  have hle := UInt32.le_iff_toNat_le.mp hcapital.2
  exact Nat.not_le.mpr (Nat.lt_of_lt_of_le (by decide) h) hle

theorem map_lowered_utf8EncodeChar (c : Char) :
    (String.utf8EncodeChar c).map lowered = String.utf8EncodeChar c.toLower := by
  rcases Nat.lt_or_ge c.toNat 0x80 with hascii | hlarge
  · have hall : ∀ code < 0x80, (String.utf8EncodeChar (Char.ofNat code)).map lowered =
        String.utf8EncodeChar (Char.ofNat code).toLower := by decide +kernel
    have hthis := hall c.toNat hascii
    rwa [Char.ofNat_toNat] at hthis
  · rw [toLower_eq_self hlarge]
    exact (List.map_congr_left fun byte hbyte => lowered_eq_self (le_of_mem_utf8EncodeChar hlarge hbyte)).trans
      (List.map_id _)

theorem bytesOf_map_toLower (text : String) : bytesOf (text.map Char.toLower) = (bytesOf text).map lowered := by
  rw [bytesOf_eq_flatMap, bytesOf_eq_flatMap, String.toList_map, List.flatMap_map, List.map_flatMap]
  exact congrArg (text.toList.flatMap ·) (funext fun c => (map_lowered_utf8EncodeChar c).symm)

theorem kind?_eq_some_iff {text : String} {kind : TokenKind} :
    kind? text = some kind ↔ (text.map Char.toLower, kind) ∈ table := by
  have hlocates := kind?_locates text
  rw [← bytesOf_map_toLower] at hlocates
  constructor
  · intro h
    rw [h] at hlocates
    obtain ⟨word, hword, hbytes⟩ := hlocates
    rwa [← bytesOf_inj.mp hbytes]
  · intro h
    cases hkind : kind? text with
    | none =>
      rw [hkind] at hlocates
      exact absurd rfl (hlocates _ h)
    | some found =>
      rw [hkind] at hlocates
      obtain ⟨word, hword, hbytes⟩ := hlocates
      rw [bytesOf_inj.mp hbytes] at hword
      rw [kind_unique hword h]

/-- A text of ten bytes is turned away, and so is a letter that only looks like one of a word. -/
example : ["PROCEdure", "PROCEDURE_", "taſk", ""].map kind? = [some .kwProcedure, none, none, none] := by
  decide +kernel

theorem isReserved_of_kind? {text : String} {kind : TokenKind} (h : kind? text = some kind) : kind.isReserved :=
  table_isReserved _ (kind?_eq_some_iff.mp h)

end ReservedWord

end AdaSyntax
