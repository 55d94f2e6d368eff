import DocTree.Markup.Normalize
import DocTree.Proofs.Text.Margins

/-!
# Docstrings further to the right

A docstring stands as far to the right as the code around it. Its first line begins behind the
opening quotes, and all others move together; what is read from it stays the same.

* `shiftBelow`: the lines below the first one moved right;
* `exists_lines_shiftBelow`: **its lines**, with one more blank line if the text ends with a newline;
* `expandTabs_shift`: tab stops move with a line if the distance is a multiple of theirs;
* `prepare_shiftBelow`, **`normalize_shiftBelow`**: the lines it is prepared to, and its document.
-/

namespace DocTree

namespace Text

/-- The text with its lines below the first one moved right: `k` spaces stand behind each newline. -/
def shiftBelow (k : Nat) (raw : String) : String :=
  .ofList (raw.toList.flatMap fun c => if c = '\n' then c :: List.replicate k ' ' else [c])

/-! ## Lines -/

section Pieces

variable {α : Type} {p : α → Bool}

/-- What stands in front of a text without a separator belongs to its first piece. -/
theorem splitWhere_append_left {before l piece : List α} {pieces : List (List α)}
    (h : ∀ a ∈ before, p a = false) (hl : splitWhere p l = piece :: pieces) :
    splitWhere p (before ++ l) = (before ++ piece) :: pieces := by
  induction before with
  | nil => exact hl
  | cons a before ih =>
    obtain ⟨ha, hbefore⟩ := List.forall_mem_cons.mp h
    rw [List.cons_append, splitWhere, if_neg (by rw [ha]; exact Bool.false_ne_true), ih hbefore]
    rfl

end Pieces

variable {k : Nat}

/-- Every piece but the first one is moved right. -/
theorem splitWhere_shiftBelow (k : Nat) {cs first : List Char} {rest : List (List Char)}
    (h : splitWhere (· == '\n') cs = first :: rest) :
    splitWhere (· == '\n')
        (cs.flatMap fun c => if c = '\n' then c :: List.replicate k ' ' else [c]) =
      first :: rest.map (List.replicate k ' ' ++ ·) := by
  have hspaces : ∀ c ∈ List.replicate k ' ', (c == '\n') = false := fun c hc => by
    rw [List.eq_of_mem_replicate hc]
    rfl
  induction cs generalizing first rest with
  | nil =>
    obtain ⟨rfl, rfl⟩ := List.cons_eq_cons.mp h
    rfl
  | cons c cs ih =>
    obtain ⟨piece, pieces, hcs⟩ := List.exists_cons_of_ne_nil (splitWhere_ne_nil (· == '\n') cs)
    rw [splitWhere, hcs] at h
    by_cases hc : c = '\n'
    · subst hc
      have hsep : ('\n' == '\n') = true := rfl
      rw [hsep, if_pos rfl] at h
      obtain ⟨rfl, rfl⟩ := List.cons_eq_cons.mp h
      rw [List.flatMap_cons, if_pos rfl, List.cons_append, splitWhere, hsep, if_pos rfl,
        splitWhere_append_left hspaces (ih hcs), List.map_cons]
    · have hne : (c == '\n') = false := by simpa using hc
      rw [hne, if_neg Bool.false_ne_true] at h
      obtain ⟨rfl, rfl⟩ := List.cons_eq_cons.mp h
      rw [List.flatMap_cons, if_neg hc, List.singleton_append, splitWhere, hne,
        if_neg Bool.false_ne_true, ih hcs]

/-- A carriage return at the end of a line stays there. -/
theorem dropReturn_append (k : Nat) (line : List Char) :
    dropReturn (List.replicate k ' ' ++ line) = List.replicate k ' ' ++ dropReturn line := by
  rcases List.eq_nil_or_concat' line with rfl | ⟨init, c, rfl⟩
  · have hlast : (List.replicate k ' ').getLast? ≠ some '\r' := by
      intro h
      exact absurd (List.eq_of_mem_replicate (List.mem_of_getLast? h)) (by decide)
    have hnil : dropReturn ([] : List Char) = [] := rfl
    rw [hnil, List.append_nil, dropReturn, if_neg hlast]
  · rw [dropReturn, dropReturn, ← List.append_assoc, List.getLast?_concat, List.getLast?_concat]
    split
    · rw [List.dropLast_concat, List.dropLast_concat]
    · rw [List.append_assoc]

/-- A piece that is not the last one is a line. -/
theorem linesOfPieces_cons {pieces : List (List Char)} (h : pieces ≠ []) (first : List Char) :
    linesOfPieces (first :: pieces) = dropReturn first :: linesOfPieces pieces := by
  obtain ⟨second, pieces, rfl⟩ := List.exists_cons_of_ne_nil h
  rfl

/-- An empty last piece is no line, but with spaces it is one. -/
theorem exists_linesOfPieces_map (k : Nat) (pieces : List (List Char)) :
    ∃ n, linesOfPieces (pieces.map (List.replicate k ' ' ++ ·)) =
      (linesOfPieces pieces ++ List.replicate n []).map (List.replicate k ' ' ++ ·) := by
  match pieces with
  | [] => exact ⟨0, rfl⟩
  | [last] =>
    cases last with
    | nil =>
      cases k with
      | zero => exact ⟨0, rfl⟩
      | succ k => exact ⟨1, rfl⟩
    | cons c last =>
      refine ⟨0, ?_⟩
      simp [linesOfPieces]
  | first :: second :: pieces =>
    obtain ⟨n, hn⟩ := exists_linesOfPieces_map k (second :: pieces)
    have hne : second :: pieces ≠ [] := List.cons_ne_nil _ _
    refine ⟨n, ?_⟩
    rw [List.map_cons, linesOfPieces_cons (by simp), hn, dropReturn_append, linesOfPieces_cons hne,
      List.cons_append, List.map_cons]

/-- **The lines of a text that is moved right**: blank lines may be added at the end. -/
theorem exists_lines_shiftBelow (k : Nat) (raw : String) :
    lines (shiftBelow k raw) = lines raw ∨
      ∃ first rest n, lines raw = first :: rest ∧
        lines (shiftBelow k raw) = first :: (rest ++ List.replicate n "").map (shift k) := by
  obtain ⟨first, rest, hpieces⟩ :=
    List.exists_cons_of_ne_nil (splitWhere_ne_nil (· == '\n') raw.toList)
  have hmoved := splitWhere_shiftBelow k hpieces
  rw [lines, lines, shiftBelow, String.toList_ofList, hmoved, hpieces]
  cases rest with
  | nil => exact .inl rfl
  | cons second rest =>
    obtain ⟨n, hn⟩ := exists_linesOfPieces_map k (second :: rest)
    refine .inr ⟨.ofList (dropReturn first), (linesOfPieces (second :: rest)).map String.ofList, n,
      rfl, ?_⟩
    have hline : String.ofList ∘ (List.replicate k ' ' ++ ·) = shift k ∘ String.ofList := by
      funext line
      rw [Function.comp_apply, Function.comp_apply, ← String.toList_inj, toList_shift,
        String.toList_ofList, String.toList_ofList]
    rw [List.map_cons, ← List.map_cons, linesOfPieces_cons (by simp), List.map_cons, hn,
      List.map_map, hline, ← List.map_map, List.map_append, List.map_replicate]

/-- A character of a line is one of the text. -/
theorem mem_of_mem_lines {raw line : String} {c : Char} (hline : line ∈ lines raw)
    (hc : c ∈ line.toList) : c ∈ raw.toList := by
  have hpieces : ∀ pieces : List (List Char), ∀ l ∈ linesOfPieces pieces, c ∈ l →
      c ∈ pieces.flatten := by
    intro pieces
    induction pieces with
    | nil => exact fun _ hl => nomatch hl
    | cons first pieces ih =>
      intro l hl hcl
      rw [List.flatten_cons, List.mem_append]
      cases pieces with
      | nil =>
        rw [linesOfPieces] at hl
        split at hl
        · cases hl
        · exact .inl (List.mem_singleton.mp hl ▸ hcl)
      | cons second pieces =>
        rcases List.mem_cons.mp hl with rfl | hl
        · rw [dropReturn] at hcl
          split at hcl
          · exact .inl (List.dropLast_subset _ hcl)
          · exact .inl hcl
        · exact .inr (ih l hl hcl)
  obtain ⟨l, hl, rfl⟩ := List.mem_map.mp hline
  rw [String.toList_ofList] at hc
  have hmem := hpieces _ l hl hc
  rw [flatten_splitWhere] at hmem
  exact (List.mem_filter.mp hmem).1

/-! ## Tabs -/

theorem expandTabsFrom_replicate (k col : Nat) (cs : List Char) :
    expandTabsFrom col (List.replicate k ' ' ++ cs) =
      List.replicate k ' ' ++ expandTabsFrom (col + k) cs := by
  induction k generalizing col with
  | zero => rfl
  | succ k ih =>
    rw [List.replicate_succ, List.cons_append, expandTabsFrom, if_neg (by decide), ih,
      List.cons_append]
    congr 3
    omega

/-- Only the distance to the next tab stop matters. -/
theorem expandTabsFrom_add (hk : k % tabWidth = 0) (col : Nat) (cs : List Char) :
    expandTabsFrom (col + k) cs = expandTabsFrom col cs := by
  have hcol : ∀ col : Nat, (col + k) % tabWidth = col % tabWidth := by
    intro col
    rw [Nat.add_mod, hk, Nat.add_zero, Nat.mod_mod]
  induction cs generalizing col with
  | nil => rfl
  | cons c cs ih =>
    rw [expandTabsFrom, expandTabsFrom, hcol, Nat.add_right_comm col k 1, ih]
    dsimp only
    rw [Nat.add_right_comm col k, ih]

theorem expandTabs_shift {line : String} (h : k % tabWidth = 0 ∨ '\t' ∉ line.toList) :
    expandTabs (shift k line) = shift k (expandTabs line) := by
  rw [← String.toList_inj, toList_shift, expandTabs, expandTabs, String.toList_ofList,
    String.toList_ofList, toList_shift, expandTabsFrom_replicate]
  rcases h with hk | htab
  · rw [expandTabsFrom_add hk]
  · rw [expandTabsFrom_of_not_mem htab, expandTabsFrom_of_not_mem htab]

/-! ## Prepared lines -/

/-- **A docstring further to the right is prepared to the same lines.** -/
theorem prepare_shiftBelow {raw : String} (h : k % tabWidth = 0 ∨ '\t' ∉ raw.toList) :
    prepare (shiftBelow k raw) = prepare raw := by
  rcases exists_lines_shiftBelow k raw with hsame | ⟨first, rest, n, hlines, hmoved⟩
  · rw [prepare, prepare, hsame]
  · have htabs : ∀ line ∈ rest ++ List.replicate n "",
        expandTabs (shift k line) = shift k (expandTabs line) := by
      intro line hline
      refine expandTabs_shift (h.imp_right fun htab hmem => ?_)
      rcases List.mem_append.mp hline with hline | hline
      · exact htab (mem_of_mem_lines (hlines ▸ List.mem_cons_of_mem _ hline) hmem)
      · rw [List.eq_of_mem_replicate hline] at hmem
        cases hmem
    have hexpand : ((rest ++ List.replicate n "").map (shift k)).map expandTabs =
        (rest.map expandTabs ++ List.replicate n "").map (shift k) := by
      calc ((rest ++ List.replicate n "").map (shift k)).map expandTabs
        _ = (rest ++ List.replicate n "").map fun line => expandTabs (shift k line) := List.map_map
        _ = (rest ++ List.replicate n "").map fun line => shift k (expandTabs line) :=
          List.map_congr_left htabs
        _ = ((rest ++ List.replicate n "").map expandTabs).map (shift k) := List.map_map.symm
        _ = (rest.map expandTabs ++ List.replicate n "").map (shift k) := by
          rw [List.map_append, List.map_replicate, show expandTabs "" = "" from rfl]
    have hblank := isBlank_of_mem_replicate_empty n
    rw [prepare, prepare, hlines, hmoved, List.map_cons, List.map_cons, hexpand]
    dsimp only
    rw [(movesRight_shift k).dedent_map, dedent_append_blank _ hblank, ← List.cons_append,
      stripBlank, stripWhile_append _ (isBlank_of_mem_replicate_empty _), stripBlank]

end Text

open Text

/-- **How far to the right a docstring stands does not matter**: its document is the same, and so is
its error. -/
theorem normalize_shiftBelow (style : Style) {raw : String} {k : Nat}
    (h : k % tabWidth = 0 ∨ '\t' ∉ raw.toList) :
    normalize style (shiftBelow k raw) = normalize style raw := by
  rw [normalize, normalize, prepare_shiftBelow h]

namespace Sample

/-- Lines that begin with tabs and end with carriage returns, in a class body. -/
theorem normalize_shiftBelow_of_tabs :
    let raw := "Count.\r\n\r\n\t:param n: How\n\t    many.\n"
    (8 % tabWidth = 0 ∨ '\t' ∉ raw.toList) ∧
      shiftBelow 8 raw =
        "Count.\r\n        \r\n        \t:param n: How\n        \t    many.\n        " ∧
      normalize .rst (shiftBelow 8 raw) =
        .ok ⟨[.paragraph "Count.", .field "param n" "How\nmany."]⟩ := by
  intro raw
  have hstops : 8 % tabWidth = 0 ∨ '\t' ∉ raw.toList := .inl rfl
  have hlines : prepare raw = ["Count.", "", ":param n: How", "    many."] := by decide +kernel
  have hdoc : normalize .rst raw =
      .ok ⟨[.paragraph "Count.", .field "param n" "How\nmany."]⟩ := by
    rw [normalize, hlines]
    rfl
  exact ⟨hstops, by decide +kernel, (normalize_shiftBelow .rst hstops).trans hdoc⟩

end Sample

end DocTree
