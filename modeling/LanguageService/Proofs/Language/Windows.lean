import LanguageService.Proofs.Language.Declarations

/-! The outline by its windows. A declaration is two neighbouring tokens and an import three, wherever they
stand. The pass over the tokens steps over those that it has read as part of a window, and none of these
begins a window of its own, so that no window is passed over and none is read twice. -/
namespace LanguageService

theorem Declarator.ofTokenIff {t : Token} {d : Declarator} :
    ofToken? t = some d ↔ t.isKeyword d.keyword = true := by
  refine ⟨fun found => by simpa using List.find?_some found, fun reserved => ?_⟩
  simp only [Token.isKeyword, Bool.and_eq_true, beq_iff_eq] at reserved
  unfold ofToken? all Token.isKeyword
  rw [reserved.1, reserved.2]
  cases d <;> decide

/- A keyword with the kind and the display of what it declares. -/
def Declarator.rows : List (String × Symbol.Kind × String) :=
  [("function", .function, "function"), ("let", .binding, "variable"), ("struct", .structLike, "struct"),
    ("data", .structLike, "data")]

theorem Declarator.rowIff {word : String} {d : Declarator} : (word, d.kind, d.display) ∈ rows ↔ word = d.keyword := by
  cases d <;> simp [rows, kind, display, keyword]

namespace Outline

def declaredAt? (tokens : List Token) (i : Nat) : Option Symbol := do
  let keyword ← tokens[i]?
  let name ← tokens[i + 1]?
  let d ← Declarator.ofToken? keyword
  if name.isIdentifier then some (symbol d keyword name) else none

def loadedAt? (tokens : List Token) (i : Nat) : Option String := do
  let load ← tokens[i]?
  let system ← tokens[i + 1]?
  let module ← tokens[i + 2]?
  if load.isKeyword "load" && system.isKeyword "system" && module.isIdentifier then some module.text else none

/- The windows of a token list, from left to right. -/
def windows {α : Type} (at? : List Token → Nat → Option α) (tokens : List Token) : List α :=
  (List.range tokens.length).filterMap (at? tokens)

def declarations (tokens : List Token) : List Symbol := windows declaredAt? tokens

def loads (tokens : List Token) : List String := windows loadedAt? tokens

structure DeclaredAt (tokens : List Token) (i : Nat) (s : Symbol) (keyword name : Token) : Prop where
  first : tokens[i]? = some keyword
  second : tokens[i + 1]? = some name
  reserved : keyword.kind = .keyword
  row : (keyword.text, s.kind, s.display) ∈ Declarator.rows
  free : name.kind = .identifier
  named : s.name = name.text
  range : s.range = ⟨keyword.start, name.stop⟩
  selection : s.selection = name.range

theorem declaredAtIff {tokens : List Token} {i : Nat} {s : Symbol} :
    declaredAt? tokens i = some s ↔ ∃ keyword name, DeclaredAt tokens i s keyword name := by
  simp only [declaredAt?, bind, Option.bind_eq_some_iff, Declarator.ofTokenIff]
  constructor
  · rintro ⟨keyword, first, name, second, d, reserved, declared⟩
    split at declared
    · rename_i free
      cases declared
      simp only [Token.isKeyword, Bool.and_eq_true, beq_iff_eq, Token.isIdentifier] at reserved free
      exact ⟨keyword, name, first, second, reserved.1, Declarator.rowIff.mpr reserved.2, free, rfl, rfl, rfl⟩
    · cases declared
  · rintro ⟨keyword, name, first, second, reserved, row, free, named, range, selection⟩
    obtain ⟨_, d, _, _⟩ := s
    cases named
    cases range
    cases selection
    refine ⟨keyword, first, name, second, d, ?_, ?_⟩
    · simp [Token.isKeyword, reserved, Declarator.rowIff.mp row]
    · simp [Token.isIdentifier, free, symbol, Token.range]

/- A token that begins no window, whatever stands behind it. -/
def Idle (t : Token) : Prop := t.isKeyword "load" = false ∧ Declarator.ofToken? t = none

theorem identifierIdle {t : Token} (free : t.isIdentifier = true) : Idle t := by
  have word : ∀ text, t.isKeyword text = false := by
    intro text
    simp only [Token.isIdentifier, beq_iff_eq] at free
    simp [Token.isKeyword, free]
  exact ⟨word _, List.find?_eq_none.mpr fun d _ => by simp [word]⟩

theorem systemIdle {t : Token} (reserved : t.isKeyword "system" = true) : Idle t := by
  simp only [Token.isKeyword, Bool.and_eq_true, beq_iff_eq] at reserved
  unfold Idle Declarator.ofToken? Token.isKeyword
  rw [reserved.1, reserved.2]
  decide

/- What may be asked at every place of a token list: it looks ahead only, and finds nothing at idle tokens. -/
structure Ahead {α : Type} (at? : List Token → Nat → Option α) : Prop where
  behind : ∀ t rest i, at? (t :: rest) (i + 1) = at? rest i
  idle : ∀ t rest, Idle t → at? (t :: rest) 0 = none

theorem declaredAhead : Ahead declaredAt? where
  behind _ _ _ := rfl
  idle t rest idle := by cases rest <;> simp [declaredAt?, idle.2]

theorem loadedAhead : Ahead loadedAt? where
  behind _ _ _ := rfl
  idle t rest idle := by rcases rest with _ | ⟨system, _ | ⟨module, rest⟩⟩ <;> simp [loadedAt?, idle.1]

section Ahead
variable {α : Type} {at? : List Token → Nat → Option α} (ahead : Ahead at?)
include ahead

theorem windowsCons (t : Token) (rest : List Token) :
    windows at? (t :: rest) = (at? (t :: rest) 0).toList ++ windows at? rest := by
  have later : at? (t :: rest) ∘ Nat.succ = at? rest := funext (ahead.behind t rest)
  rw [windows, List.length_cons, List.range_succ_eq_map, List.filterMap_cons, List.filterMap_map, later]
  cases at? (t :: rest) 0 <;> rfl

theorem windowsSkip {skipped : List Token} (idle : ∀ t ∈ skipped, Idle t) (rest : List Token) :
    windows at? (skipped ++ rest) = windows at? rest := by
  induction skipped with
  | nil => rfl
  | cons t skipped ih =>
    obtain ⟨first, later⟩ := List.forall_mem_cons.mp idle
    rw [List.cons_append, windowsCons ahead, ahead.idle _ _ first, ih later]
    rfl

/- Idle tokens behind a token can be left out. -/
theorem windowsNext {t : Token} {rest : List Token} {more : Nat} (idle : ∀ u ∈ rest.take more, Idle u) :
    windows at? (t :: rest) = (at? (t :: rest) 0).toList ++ windows at? (rest.drop more) := by
  rw [windowsCons ahead, ← windowsSkip ahead idle (rest.drop more), List.take_append_drop]

end Ahead

def declareAll (o : Outline) (symbols : List Symbol) (imports : List String) : Outline where
  symbols := symbols.foldl (fun t s => t.insert s.name s) o.symbols
  imports := o.imports ++ imports

theorem declareAllNone (o : Outline) : o.declareAll [] [] = o := by
  simp [declareAll]

theorem declareAllMore (o : Outline) (first second : List Symbol) (before after : List String) :
    (o.declareAll first before).declareAll second after = o.declareAll (first ++ second) (before ++ after) := by
  simp [declareAll]

/- One read records the window at its token, and what it takes beyond the token begins no window. -/
structure ReadsWindow (o : Outline) (t : Token) (rest : List Token) (read : Outline × Nat) : Prop where
  recorded : read.1 = o.declareAll (declaredAt? (t :: rest) 0).toList (loadedAt? (t :: rest) 0).toList
  idle : ∀ u ∈ rest.take read.2, Idle u

theorem loadDeclares {t : Token} (load : t.isKeyword "load" = true) : Declarator.ofToken? t = none := by
  simp only [Token.isKeyword, Bool.and_eq_true, beq_iff_eq] at load
  unfold Declarator.ofToken? Token.isKeyword
  rw [load.1, load.2]
  decide

theorem readNothing {o : Outline} {t : Token} {rest : List Token} {more : Nat}
    (declares : declaredAt? (t :: rest) 0 = none) (loads : loadedAt? (t :: rest) 0 = none)
    (idle : ∀ u ∈ rest.take more, Idle u) : ReadsWindow o t rest (o, more) := by
  refine ⟨?_, idle⟩
  rw [declares, loads]
  exact (declareAllNone o).symm

theorem readLoad (o : Outline) {t : Token} (load : t.isKeyword "load" = true) (rest : List Token) :
    ReadsWindow o t rest (o.read t rest) := by
  have declares : declaredAt? (t :: rest) 0 = none := by
    cases rest <;> simp [declaredAt?, loadDeclares load]
  match rest with
  | [] =>
    simp only [read, load, if_true]
    exact readNothing declares rfl (by simp)
  | [system] =>
    simp only [read, load, if_true]
    exact readNothing declares rfl (by simp)
  | system :: module :: later =>
    simp only [read, load, if_true]
    cases reserved : system.isKeyword "system" with
    | false => exact readNothing declares (by simp [loadedAt?, reserved]) (by simp)
    | true =>
      have first := systemIdle reserved
      cases free : module.isIdentifier with
      | false => exact readNothing declares (by simp [loadedAt?, free]) (by simpa using first)
      | true =>
        refine ⟨?_, by simpa using ⟨first, identifierIdle free⟩⟩
        rw [declares]
        simp [loadedAt?, load, reserved, free, declareAll, Outline.load]

theorem readDeclaration (o : Outline) {t : Token} (other : t.isKeyword "load" = false) (rest : List Token) :
    ReadsWindow o t rest (o.read t rest) := by
  have loads : loadedAt? (t :: rest) 0 = none := by
    rcases rest with _ | ⟨system, _ | ⟨module, later⟩⟩ <;> simp [loadedAt?, other]
  cases declarator : Declarator.ofToken? t with
  | none =>
    simp only [read, other, Bool.false_eq_true, if_false, declarator]
    exact readNothing (declaredAhead.idle t rest ⟨other, declarator⟩) loads (by simp)
  | some d =>
    cases rest with
    | nil =>
      simp only [read, other, Bool.false_eq_true, if_false, declarator]
      exact readNothing rfl loads (by simp)
    | cons name later =>
      simp only [read, other, Bool.false_eq_true, if_false, declarator]
      cases free : name.isIdentifier with
      | false => exact readNothing (by simp [declaredAt?, free]) loads (by simp)
      | true =>
        refine ⟨?_, by simpa using identifierIdle free⟩
        rw [loads]
        simp [declaredAt?, declarator, free, declareAll, declare]

theorem readWindow (o : Outline) (t : Token) (rest : List Token) : ReadsWindow o t rest (o.read t rest) := by
  cases load : t.isKeyword "load" with
  | true => exact readLoad o load rest
  | false => exact readDeclaration o load rest

theorem collectWindows (o : Outline) (tokens : List Token) :
    o.collect tokens = o.declareAll (declarations tokens) (loads tokens) := by
  unfold declarations loads
  fun_induction collect o tokens with
  | case1 o => exact (declareAllNone o).symm
  | case2 o t rest next more taken ih =>
    obtain ⟨recorded, idle⟩ : ReadsWindow o t rest (next, more) := taken ▸ readWindow o t rest
    rw [ih, windowsNext declaredAhead idle, windowsNext loadedAhead idle, ← declareAllMore, ← recorded]

theorem ofTokensNamed (tokens : List Token) :
    ∀ entry ∈ (ofTokens tokens).symbols.entries, entry.2.name = entry.1 := by
  intro entry listed
  have sound := ofTokensSound tokens
  exact (sound.declared entry.1 entry.2 (Table.entryGet sound.distinct listed)).1

theorem ofKindEntries (tokens : List Token) (kind : Symbol.Kind) :
    ((ofTokens tokens).ofKind kind).map (fun s => (s.name, s)) =
      (ofTokens tokens).symbols.entries.filter (·.2.kind = kind) := by
  rw [ofKind, Table.values, List.filter_map, List.map_map]
  refine (List.map_congr_left fun entry listed => ?_).trans (List.map_id _)
  exact Prod.ext (ofTokensNamed tokens entry (List.mem_of_mem_filter listed)) rfl

theorem ofTokensWindows (tokens : List Token) :
    (∀ i s, declaredAt? tokens i = some s ↔ ∃ keyword name, DeclaredAt tokens i s keyword name) ∧
    (ofTokens tokens).imports = loads tokens ∧
    (∀ name, (ofTokens tokens).lookup? name = (declarations tokens).reverse.find? (·.name = name)) ∧
    (ofTokens tokens).symbols.keys.Nodup ∧
    (ofTokens tokens).symbols.keys = ((declarations tokens).map Symbol.name).eraseDups ∧
    ∀ kind, ((ofTokens tokens).ofKind kind).map (fun s => (s.name, s)) =
      (ofTokens tokens).symbols.entries.filter (·.2.kind = kind) := by
  have whole : ofTokens tokens = declareAll {} (declarations tokens) (loads tokens) := collectWindows {} tokens
  refine ⟨fun _ _ => declaredAtIff, ?_, fun name => ?_, (ofTokensSound tokens).distinct, ?_, ofKindEntries tokens⟩
  · rw [whole]
    rfl
  · rw [whole, lookup?, declareAll, Table.getFold]
    exact Option.or_none
  · rw [whole, declareAll, Table.keysFold]
    simp [Table.keys, EmptyCollection.emptyCollection]

end Outline
end LanguageService
