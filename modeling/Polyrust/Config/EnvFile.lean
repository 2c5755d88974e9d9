import Polyrust.Config
import Polyrust.Lib.Lines
import Polyrust.Lib.Run
import Mathlib.Data.Finset.Card

/-!
# The environment file

How `.env.poly` is loaded into the environment of the process (`load_env_file`, `config.rs`). A
variable that is set is never changed, and the first assignment of the file to one that is not
counts (`loadEnvFile_ok_iff`); setting it panics where its name or its value has a NUL. The files
make exactly the assignments that can be written between single quotes (`assigns_iff`).
-/

open Text

namespace Polyrust

/-- The value of a variable, which need not be Unicode text. -/
inductive EnvValue where
  | text (value : String)
  | other (bytes : List UInt8)
  deriving DecidableEq, Repr

/-- A name that a variable may have. -/
def Nameable (name : String) : Prop := name ≠ "" ∧ '=' ∉ name.toList ∧ '\x00' ∉ name.toList

instance (name : String) : Decidable (Nameable name) := inferInstanceAs (Decidable (_ ∧ _))

/-- The environment of the process. -/
structure Environment where
  vars : String → Option EnvValue
  nameable : ∀ name, vars name ≠ none → Nameable name

/-- The panic of `env::set_var`. -/
structure SetVarPanic where
  name : String
  value : String
  deriving DecidableEq, Repr

namespace Environment

/-- Environments with the same variables are equal. -/
theorem ext_vars {env env' : Environment} (h : ∀ name, env.vars name = env'.vars name) :
    env = env' := by
  cases env
  cases env'
  congr
  exact funext h

/-- `env::var`, where what is not Unicode text is not there. -/
def var (env : Environment) (name : String) : Option String :=
  match env.vars name with
  | some (.text value) => some value
  | _ => none

/-- `env::set_var`. -/
def setVar (env : Environment) (name value : String) : Except SetVarPanic Environment :=
  if h : Nameable name ∧ '\x00' ∉ value.toList then
    .ok
      { vars := fun other => if other = name then some (.text value) else env.vars other
        nameable := fun other hset => by
          by_cases hother : other = name
          · exact hother ▸ h.1
          · exact env.nameable other (by rwa [if_neg hother] at hset) }
  else .error ⟨name, value⟩

/-- Setting a variable succeeds if its name and value may be set, and changes that variable only. -/
theorem setVar_eq_ok_iff {env env' : Environment} {name value : String} :
    env.setVar name value = .ok env' ↔ (Nameable name ∧ '\x00' ∉ value.toList) ∧
      ∀ other, env'.vars other = if other = name then some (.text value) else env.vars other := by
  rw [setVar]
  split_ifs with h
  · refine ⟨?_, fun h' => ?_⟩
    · rintro ⟨⟩
      exact ⟨h, fun _ => rfl⟩
    · exact congrArg Except.ok (ext_vars fun other => (h'.2 other).symm)
  · exact ⟨nofun, fun h' => absurd h'.1 h⟩

end Environment

namespace Config

open Environment

/-! ## Loading -/

/-- The assignment of a line, if it makes one. -/
def assignment (rawLine : List Char) : Option (String × String) :=
  let line := trim rawLine
  if line.isEmpty || line.head? == some '#' then none
  else
    match splitOnce '=' line with
    | none => none
    | some (key, value) =>
      let key := trim key
      if key.isEmpty then none
      else some (String.ofList key,
        String.ofList (trimMatches '\'' (trimMatches '\x22' (trim value))))

/-- The assignments of a text, in order. -/
def assignments (text : String) : List (String × String) :=
  (lines text.toList).filterMap assignment

/-- An assignment is made unless the variable is set; the number counts those that are made. -/
def assign (st : Environment × Nat) (e : String × String) :
    Except SetVarPanic (Environment × Nat) :=
  if st.1.vars e.1 = none then (st.1.setVar e.1 e.2).map fun env => (env, st.2 + 1)
  else .ok st

/-- A line of the file. -/
def loadLine (st : Environment × Nat) (rawLine : List Char) :
    Except SetVarPanic (Environment × Nat) :=
  match assignment rawLine with
  | none => .ok st
  | some e => assign st e

/-- `load_env_file`: the environment after it, and the number of variables it has set; `file` is
what the file is read as. -/
def loadEnvFile (path : String) (file : Except String String) (env : Environment) :
    Except SetVarPanic (Environment × Except ConfigError Nat) :=
  match file with
  | .error e => .ok (env, .error
      (.invalid "ENV_FILE" ("read_failed path=" ++ path ++ " error=" ++ e)))
  | .ok text =>
    (Machine.runM loadLine (env, 0) (lines text.toList)).map fun st => (st.1, .ok st.2)

/-- The lines are loaded by their assignments. -/
theorem runM_loadLine (st : Environment × Nat) (ls : List (List Char)) :
    Machine.runM loadLine st ls = Machine.runM assign st (ls.filterMap assignment) := by
  induction ls generalizing st with
  | nil => rfl
  | cons l ls ih =>
    rw [Machine.runM, List.foldlM_cons, loadLine]
    cases hl : assignment l with
    | none =>
      rw [List.filterMap_cons_none hl]
      exact ih st
    | some e =>
      rw [List.filterMap_cons_some hl, Machine.runM, List.foldlM_cons]
      exact bind_congr fun st' => ih st'

/-! ## What is set -/

/-- The variables that the assignments set. -/
def added (env : Environment) (es : List (String × String)) : Finset String :=
  (es.map (·.1)).toFinset.filter fun name => env.vars name = none

/-- The first assignment to each of these variables can be made. -/
def Settable (env : Environment) (es : List (String × String)) : Prop :=
  ∀ name value, env.vars name = none → es.lookup name = some value →
    Nameable name ∧ '\x00' ∉ value.toList

/-- The first entry of a name is found. -/
theorem lookup_cons_eq (e : String × String) (es : List (String × String)) (name : String) :
    (e :: es).lookup name = if name = e.1 then some e.2 else es.lookup name := by
  rw [List.lookup_cons]
  split_ifs with h
  · rw [h, beq_self_eq_true]
  · rw [beq_eq_false_iff_ne.2 h]

section
variable {env env₁ env' : Environment} {e : String × String} {es : List (String × String)}

/-- Where a variable is set already, its assignment does not matter to what can be set. -/
theorem settable_cons_of_set (hset : env.vars e.1 ≠ none) :
    Settable env (e :: es) ↔ Settable env es := by
  have hlookup (name : String) (hname : env.vars name = none) :
      (e :: es).lookup name = es.lookup name := by
    rw [lookup_cons_eq, if_neg]
    rintro rfl
    exact hset hname
  refine ⟨fun h name value hname hvalue => ?_, fun h name value hname hvalue => ?_⟩
  · exact h name value hname ((hlookup name hname).trans hvalue)
  · exact h name value hname ((hlookup name hname).symm.trans hvalue)

/-- Where a variable is set already, its assignment does not change its value. -/
theorem or_lookup_cons_of_set (hset : env.vars e.1 ≠ none) (name : String) :
    (env.vars name).or (((e :: es).lookup name).map .text) =
      (env.vars name).or ((es.lookup name).map .text) := by
  rw [lookup_cons_eq]
  split_ifs with hname
  · obtain ⟨value, hvalue⟩ := Option.ne_none_iff_exists'.1 hset
    rw [hname, hvalue]
    rfl
  · rfl

/-- Where a variable is set already, its assignment adds none. -/
theorem card_added_cons_of_set (hset : env.vars e.1 ≠ none) :
    (added env (e :: es)).card = (added env es).card := by
  rw [added, List.map_cons, List.toFinset_cons, Finset.filter_insert, if_neg hset]
  rfl

variable (hnew : env.vars e.1 = none)
variable (hvars : ∀ name, env₁.vars name = if name = e.1 then some (.text e.2) else env.vars name)
include hnew hvars

/-- A new variable has to be settable, and the others after it. -/
theorem settable_cons_of_new :
    Settable env (e :: es) ↔ (Nameable e.1 ∧ '\x00' ∉ e.2.toList) ∧ Settable env₁ es := by
  refine ⟨fun h => ⟨h e.1 e.2 hnew ?_, fun name value hname hvalue => ?_⟩, ?_⟩
  · rw [lookup_cons_eq, if_pos rfl]
  · rw [hvars] at hname
    split_ifs at hname with hne
    exact h name value hname (by rwa [lookup_cons_eq, if_neg hne])
  · rintro ⟨hfirst, h⟩ name value hname hvalue
    rw [lookup_cons_eq] at hvalue
    split_ifs at hvalue with heq
    · cases hvalue
      exact heq ▸ hfirst
    · exact h name value (by rw [hvars, if_neg heq, hname]) hvalue

/-- A new variable gets the value of its assignment. -/
theorem or_lookup_cons_of_new (name : String) :
    (env.vars name).or (((e :: es).lookup name).map .text) =
      (env₁.vars name).or ((es.lookup name).map .text) := by
  rw [hvars, lookup_cons_eq]
  split_ifs with hname
  · rw [hname, hnew]
    rfl
  · rfl

/-- A new variable is one more. -/
theorem card_added_cons_of_new :
    (added env (e :: es)).card = (added env₁ es).card + 1 := by
  have hnotMem : e.1 ∉ added env₁ es := by
    intro hmem
    have hset := (Finset.mem_filter.1 hmem).2
    rw [hvars, if_pos rfl] at hset
    cases hset
  have hadded : added env (e :: es) = insert e.1 (added env₁ es) := by
    ext name
    simp only [added, List.map_cons, List.toFinset_cons, Finset.mem_filter, Finset.mem_insert,
      List.mem_toFinset, hvars]
    by_cases hname : name = e.1
    · simp [hname, hnew]
    · simp [hname]
  rw [hadded, Finset.card_insert_of_notMem hnotMem]

end

/-- The run of the assignments. Once the first of them is made, its variable is set, so that the
others to the same variable count no more. -/
theorem runM_assign_iff {env env' : Environment} {n n' : Nat} {es : List (String × String)} :
    Machine.runM assign (env, n) es = .ok (env', n') ↔ Settable env es ∧
      (∀ name, env'.vars name = (env.vars name).or ((es.lookup name).map .text)) ∧
      n' = n + (added env es).card := by
  induction es generalizing env n with
  | nil =>
    have hempty : (added env []).card = 0 := rfl
    rw [hempty, Machine.runM_nil, Except.ok.injEq, Prod.mk.injEq]
    refine ⟨?_, ?_⟩
    · rintro ⟨rfl, rfl⟩
      exact ⟨nofun, fun name => Option.or_none.symm, rfl⟩
    · rintro ⟨-, hvars, hn⟩
      exact ⟨ext_vars fun name => ((hvars name).trans Option.or_none).symm, hn.symm⟩
  | cons e es ih =>
    rw [Machine.runM_cons]
    by_cases hnew : env.vars e.1 = none
    · by_cases hfirst : Nameable e.1 ∧ '\x00' ∉ e.2.toList
      · obtain ⟨env₁, hset⟩ : ∃ env₁, env.setVar e.1 e.2 = .ok env₁ := ⟨_, dif_pos hfirst⟩
        have hvars := (setVar_eq_ok_iff.1 hset).2
        have hstep : assign (env, n) e = .ok (env₁, n + 1) := by
          rw [assign, if_pos hnew, hset]
          rfl
        simp only [hstep, Except.ok.injEq, exists_eq_left', ih, settable_cons_of_new hnew hvars,
          or_lookup_cons_of_new hnew hvars, card_added_cons_of_new hnew hvars, hfirst,
          not_false_eq_true, and_self, true_and, Nat.add_assoc, Nat.add_comm]
      · have hstep : assign (env, n) e = .error ⟨e.1, e.2⟩ := by
          rw [assign, if_pos hnew, setVar, dif_neg hfirst]
          rfl
        refine ⟨?_, fun h => ?_⟩
        · rintro ⟨_, hok, -⟩
          rw [hstep] at hok
          cases hok
        · exact absurd (h.1 e.1 e.2 hnew (by rw [lookup_cons_eq, if_pos rfl])) hfirst
    · have hstep : assign (env, n) e = .ok (env, n) := if_neg hnew
      simp only [hstep, Except.ok.injEq, exists_eq_left', ih, settable_cons_of_set hnew,
        or_lookup_cons_of_set hnew, card_added_cons_of_set hnew]

section
variable {path text : String} {env env' : Environment} {n : Nat}

/-- A file is loaded by the run of its assignments. -/
theorem loadEnvFile_eq : loadEnvFile path (.ok text) env =
    (Machine.runM assign (env, 0) (assignments text)).map fun st => (st.1, .ok st.2) := by
  rw [loadEnvFile, runM_loadLine]
  rfl

/-- Loading a text performs its assignments one after the other. -/
theorem loadEnvFile_ok_iff_runM : loadEnvFile path (.ok text) env = .ok (env', .ok n) ↔
    Machine.runM assign (env, 0) (assignments text) = .ok (env', n) := by
  rw [loadEnvFile_eq]
  cases Machine.runM assign (env, 0) (assignments text) with
  | error e => exact ⟨fun h => (by cases h), fun h => (by cases h)⟩
  | ok st => exact ⟨fun h => (by cases h; rfl), fun h => (by cases h; rfl)⟩

/-- A text is loaded, unless a variable cannot be set. -/
theorem loadEnvFile_text {r : Except ConfigError Nat}
    (h : loadEnvFile path (.ok text) env = .ok (env', r)) : ∃ n, r = .ok n := by
  rw [loadEnvFile_eq] at h
  cases hrun : Machine.runM assign (env, 0) (assignments text) with
  | error e =>
    rw [hrun] at h
    cases h
  | ok st =>
    rw [hrun] at h
    cases h
    exact ⟨_, rfl⟩

/-- What loading a file does: a variable that is set keeps its value, another one gets that of the
first assignment to it, and the number is that of the variables that are set. It does not panic
just where none of these has a NUL in its name or its value. -/
theorem loadEnvFile_ok_iff :
    loadEnvFile path (.ok text) env = .ok (env', .ok n) ↔ Settable env (assignments text) ∧
      (∀ name, env'.vars name =
        (env.vars name).or (((assignments text).lookup name).map .text)) ∧
      n = (added env (assignments text)).card := by
  rw [loadEnvFile_ok_iff_runM, runM_assign_iff, Nat.zero_add]

/-- A file whose variables can be set is loaded. -/
theorem exists_loadEnvFile (h : Settable env (assignments text)) :
    ∃ env' n, loadEnvFile path (.ok text) env = .ok (env', .ok n) := by
  let env' : Environment :=
    { vars := fun name => (env.vars name).or (((assignments text).lookup name).map .text)
      nameable := fun name hname => by
        cases hset : env.vars name with
        | some value => exact env.nameable name (by rw [hset]; nofun)
        | none =>
          rw [hset, Option.none_or, Ne, Option.map_eq_none_iff] at hname
          obtain ⟨value, hvalue⟩ := Option.ne_none_iff_exists'.1 hname
          exact (h name value hset hvalue).1 }
  exact ⟨env', _, loadEnvFile_ok_iff_runM.2 (runM_assign_iff.2 ⟨h, fun _ => rfl, rfl⟩)⟩

/-- A file that is loaded again sets nothing. -/
theorem loadEnvFile_again (h : loadEnvFile path (.ok text) env = .ok (env', .ok n)) :
    loadEnvFile path (.ok text) env' = .ok (env', .ok 0) := by
  obtain ⟨-, hvars, -⟩ := runM_assign_iff.1 (loadEnvFile_ok_iff_runM.1 h)
  have hnone {name : String} (hname : env'.vars name = none) :
      (assignments text).lookup name = none := by
    rw [hvars, Option.or_eq_none_iff, Option.map_eq_none_iff] at hname
    exact hname.2
  refine loadEnvFile_ok_iff_runM.2 (runM_assign_iff.2 ⟨?_, fun name => ?_, ?_⟩)
  · intro name value hname hvalue
    rw [hnone hname] at hvalue
    cases hvalue
  · cases hname : env'.vars name with
    | none => rw [hnone hname]; rfl
    | some value => rfl
  · have hempty : added env' (assignments text) = ∅ := by
      refine Finset.filter_eq_empty_iff.2 fun name hmem hname => ?_
      obtain ⟨e, he, rfl⟩ := List.mem_map.1 (List.mem_toFinset.1 hmem)
      simpa using List.lookup_eq_none_iff.1 (hnone hname) e he
    rw [hempty]
    rfl

end

/-! ## The assignments of a file -/

/-- An assignment that a line can make. -/
def Writable (e : String × String) : Prop :=
  e.1 ≠ "" ∧ CleanEnds isWhiteSpace e.1.toList ∧ e.1.toList.head? ≠ some '#' ∧
    '=' ∉ e.1.toList ∧ '\n' ∉ e.1.toList ∧
    '\n' ∉ e.2.toList ∧ CleanEnds (· == '\'') e.2.toList

instance : DecidablePred Writable := fun _ => inferInstanceAs (Decidable (_ ∧ _))

/-- The line of an assignment. -/
def writeLine (e : String × String) : List Char :=
  e.1.toList ++ '=' :: '\'' :: (e.2.toList ++ ['\''])

/-- A line for each assignment. -/
def writeLines (es : List (String × String)) : String :=
  String.ofList (es.flatMap fun e => writeLine e ++ ['\n'])

/-- What is read from a line can be written on one. -/
theorem assignment_writable {line : List Char} {e : String × String} (hline : '\n' ∉ line)
    (h : assignment line = some e) : Writable e := by
  unfold assignment at h
  dsimp only at h
  split_ifs at h with hcomment
  split at h
  · cases h
  · next key value hsplit =>
    split_ifs at h with hempty
    cases h
    obtain ⟨hkey, htrim⟩ := splitOnce_eq_some_iff.1 hsplit
    rw [trim_eq_strip] at htrim
    have hstart : (strip isWhiteSpace line).head? ≠ some '#' := by
      simp only [Bool.or_eq_true, not_or, beq_iff_eq] at hcomment
      exact hcomment.2
    have hne : strip isWhiteSpace key ≠ [] := by simpa [trim_eq_strip] using hempty
    have hofKey {c : Char} (hc : c ∈ strip isWhiteSpace key) : c ∈ line := by
      refine mem_of_mem_strip (p := isWhiteSpace) (htrim ▸ List.mem_append_left _ ?_)
      exact mem_of_mem_strip hc
    have hofValue {c : Char} (hc : c ∈ strip (· == '\'') (strip (· == '\x22')
        (strip isWhiteSpace value))) : c ∈ line := by
      refine mem_of_mem_strip (p := isWhiteSpace) (htrim ▸ List.mem_append_right _ ?_)
      exact List.mem_cons_of_mem _ (mem_of_mem_strip (mem_of_mem_strip (mem_of_mem_strip hc)))
    -- the key starts where the line does
    have hhead : (strip isWhiteSpace key).head? = (strip isWhiteSpace line).head? := by
      cases key with
      | nil => exact absurd rfl hne
      | cons c key =>
        have hclean := (cleanEnds_strip (p := isWhiteSpace) (s := line)).1
        rw [htrim] at hclean ⊢
        exact head?_strip hclean hne
    simp only [Writable, String.toList_ofList]
    refine ⟨?_, cleanEnds_strip, ?_, fun h => hkey (mem_of_mem_strip h), fun h => hline (hofKey h),
      fun h => hline (hofValue h), cleanEnds_strip⟩
    · simpa [trim_eq_strip] using hne
    · rw [trim_eq_strip, hhead]
      exact hstart

/-- What is written on a line is read from it. -/
theorem assignment_writeLine {e : String × String} (h : Writable e) :
    assignment (writeLine e) = some e := by
  obtain ⟨hne, hclean, hcomment, hkey, -, -, hvalue⟩ := h
  have hlist : e.1.toList ≠ [] := by simpa using hne
  have hquoted {p : Char → Bool} (hp : p '\'' = false) :
      strip p ('\'' :: (e.2.toList ++ ['\''])) = '\'' :: (e.2.toList ++ ['\'']) := by
    refine strip_eq_self ⟨?_, ?_⟩
    · rintro c ⟨⟩
      exact hp
    · intro c hc
      rw [← List.cons_append, List.getLast?_concat] at hc
      cases hc
      exact hp
  have htrim : trim (writeLine e) = writeLine e := by
    rw [trim_eq_strip]
    refine strip_eq_self ⟨fun c hc => hclean.1 c ?_, fun c hc => ?_⟩
    · rwa [writeLine, List.head?_append_of_ne_nil _ hlist] at hc
    · rw [writeLine, List.append_cons, ← List.cons_append, ← List.append_assoc,
        List.getLast?_concat] at hc
      cases hc
      decide
  have hsplit : splitOnce '=' (writeLine e) =
      some (e.1.toList, '\'' :: (e.2.toList ++ ['\''])) := splitOnce_eq_some_iff.2 ⟨hkey, rfl⟩
  have hstart : ((writeLine e).isEmpty || (writeLine e).head? == some '#') = false := by
    rw [writeLine, List.head?_append_of_ne_nil _ hlist]
    simpa using hcomment
  unfold assignment
  dsimp only
  rw [htrim, hstart, if_neg Bool.false_ne_true, hsplit]
  dsimp only
  rw [trim_eq_strip, strip_eq_self hclean, if_neg (by simpa using hlist), trim_eq_strip,
    hquoted (by decide), trimMatches_eq_strip '\x22', hquoted (by decide), trimMatches_eq_strip,
    strip_surrounded (by decide) (by decide) hvalue, String.ofList_toList, String.ofList_toList]

/-- The assignments that are written are read back. -/
theorem assignments_writeLines {es : List (String × String)} (h : ∀ e ∈ es, Writable e) :
    assignments (writeLines es) = es := by
  rw [assignments, writeLines, String.toList_ofList]
  induction es with
  | nil => rfl
  | cons e es ih =>
    obtain ⟨he, hes⟩ := List.forall_mem_cons.1 h
    have hline : '\n' ∉ writeLine e := by
      obtain ⟨-, -, -, -, hkey, hvalue, -⟩ := he
      simp [writeLine, hkey, hvalue]
    have hcr : '\r' ∉ (writeLine e).getLast? := by
      rw [writeLine, List.append_cons, ← List.cons_append, ← List.append_assoc,
        List.getLast?_concat]
      decide
    rw [List.flatMap_cons, List.append_assoc, List.singleton_append, lines_cons hline hcr,
      List.filterMap_cons_some (assignment_writeLine he), ih hes]

/-- The lists of assignments that a file can make. -/
theorem assigns_iff {es : List (String × String)} :
    (∃ text, assignments text = es) ↔ ∀ e ∈ es, Writable e := by
  refine ⟨?_, fun h => ⟨writeLines es, assignments_writeLines h⟩⟩
  rintro ⟨text, rfl⟩ e he
  obtain ⟨line, hline, he⟩ := List.mem_filterMap.1 he
  exact assignment_writable (newline_not_mem_lines hline) he

end Config

end Polyrust
