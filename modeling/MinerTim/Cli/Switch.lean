import MinerTim.Pool.Tls

/-!
# `Cli.Switch` — the on/off switches of the command line

`parse_switch_with` of `bin/minertim.rs`, without its warnings, and what it means: an option that is
given says something or nothing (`opinion`), and the last thing said counts (`parse_switch_last_opinion`).
-/

namespace MinerTim
namespace Cli

open Pool (trimmed stripPrefix)

/-- `str::to_ascii_lowercase`. -/
def toAsciiLowercase (s : String) : String := s.map Char.toLower

section

variable (flag : String) (failSafe : Bool)

/-- The closure `as_bool`. -/
def asBool (v : String) : Option Bool :=
  if (trimmed v).isEmpty then none
  else
    let word := toAsciiLowercase (trimmed v)
    if word = "on" ∨ word = "true" ∨ word = "yes" ∨ word = "1" then some true
    else if word = "off" ∨ word = "false" ∨ word = "no" ∨ word = "0" then some false
    else some failSafe

/-- The `while` loop of `parse_switch_with`, from some argument on. -/
def parseSwitchArgs : List String → Option Bool → Option Bool
  | [], value => value
  | arg :: args, value =>
    match stripPrefix arg (flag ++ "=") with
    | some v => parseSwitchArgs args ((asBool failSafe v).or value)
    | none =>
      if arg = flag then
        match args with
        | v :: args => parseSwitchArgs args ((asBool failSafe v).or value)
        | [] => some failSafe
      else parseSwitchArgs args value

/-- `parse_switch_with`. -/
def parseSwitchWith (args : List String) (envValue : Option String) (defaultOn : Bool) : Bool :=
  let value := envValue.bind (asBool failSafe)
  (parseSwitchArgs flag failSafe args value).getD defaultOn

end

/-- `parse_native_loop`, given the environment variable. -/
def parseNativeLoop (args : List String) (envValue : Option String) : Bool :=
  parseSwitchWith "--native-loop" false args envValue true

/-- `parse_verify_shares`, given the environment variable. -/
def parseVerifyShares (args : List String) (envValue : Option String) : Bool :=
  parseSwitchWith "--verify-shares" true args envValue true

/-! ## Opinions -/

/-- One way a switch is given: with a value, or as a flag at the end of the arguments. -/
inductive Occurrence where
  | value (v : String)
  | bare
deriving DecidableEq, Repr

/-- The spellings of a boolean. -/
def spellings (b : Bool) : List String :=
  if b then ["on", "true", "yes", "1"] else ["off", "false", "no", "0"]

/-- A value spells a boolean, in any case and with any space around it. -/
def Spells (v : String) (b : Bool) : Prop := toAsciiLowercase (trimmed v) ∈ spellings b

instance (v : String) (b : Bool) : Decidable (Spells v b) := inferInstanceAs (Decidable (_ ∈ _))

/-- Nothing but white space. -/
def IsBlank (v : String) : Prop := trimmed v = ""

instance (v : String) : Decidable (IsBlank v) := inferInstanceAs (Decidable (_ = _))

/-- What an occurrence says about the switch. -/
def opinion (failSafe : Bool) : Occurrence → Option Bool
  | .value v =>
    if IsBlank v then none
    else if Spells v true then some true
    else if Spells v false then some false
    else some failSafe
  | .bare => some failSafe

variable (flag : String)

/-- The occurrences of a switch in the arguments, from left to right. -/
def occurrences : List String → List Occurrence
  | [] => []
  | arg :: args =>
    match stripPrefix arg (flag ++ "=") with
    | some v => .value v :: occurrences args
    | none =>
      if arg = flag then
        match args with
        | v :: args => .value v :: occurrences args
        | [] => [.bare]
      else occurrences args

/-- The arguments end between two options: the last of them is no flag that waits for its value. -/
def Complete : List String → Prop
  | [] => True
  | arg :: args =>
    match stripPrefix arg (flag ++ "=") with
    | some _ => Complete args
    | none =>
      if arg = flag then
        match args with
        | _ :: args => Complete args
        | [] => False
      else Complete args

/-- The last of the opinions of some occurrences. -/
def lastOpinion (failSafe : Bool) (os : List Occurrence) : Option Bool :=
  (os.filterMap (opinion failSafe)).getLast?

/-! ## The loop -/

variable {flag : String} {failSafe : Bool}

theorem asBool_eq (v : String) : asBool failSafe v = opinion failSafe (.value v) := by
  have hblank : (trimmed v).isEmpty = true ↔ IsBlank v := String.isEmpty_iff
  have hon : Spells v true ↔ toAsciiLowercase (trimmed v) = "on" ∨ toAsciiLowercase (trimmed v) = "true"
      ∨ toAsciiLowercase (trimmed v) = "yes" ∨ toAsciiLowercase (trimmed v) = "1" := by
    simp [Spells, spellings]
  have hoff : Spells v false ↔ toAsciiLowercase (trimmed v) = "off"
      ∨ toAsciiLowercase (trimmed v) = "false" ∨ toAsciiLowercase (trimmed v) = "no"
      ∨ toAsciiLowercase (trimmed v) = "0" := by
    simp [Spells, spellings]
  simp only [asBool, opinion, hblank, hon, hoff]

theorem lastOpinion_cons (o : Occurrence) (os : List Occurrence) (value : Option Bool) :
    (lastOpinion failSafe (o :: os)).or value
      = (lastOpinion failSafe os).or ((opinion failSafe o).or value) := by
  rw [lastOpinion, lastOpinion, List.filterMap_cons]
  cases opinion failSafe o with
  | none => rfl
  | some b =>
    dsimp only
    rw [List.getLast?_cons]
    cases (os.filterMap (opinion failSafe)).getLast? <;> rfl

/-- **The loop keeps the last opinion**, and what it was given if there is none. -/
theorem parseSwitchArgs_eq (args : List String) (value : Option Bool) :
    parseSwitchArgs flag failSafe args value
      = (lastOpinion failSafe (occurrences flag args)).or value := by
  induction args using occurrences.induct flag generalizing value with
  | case1 => rfl
  | case2 arg args v hv ih =>
    unfold parseSwitchArgs occurrences
    rw [hv]
    dsimp only
    rw [ih, asBool_eq, lastOpinion_cons]
  | case3 v args hv ih =>
    unfold parseSwitchArgs occurrences
    rw [hv]
    dsimp only
    rw [if_pos rfl, if_pos rfl, ih, asBool_eq, lastOpinion_cons]
  | case4 hv =>
    unfold parseSwitchArgs occurrences
    rw [hv]
    dsimp only
    rw [if_pos rfl, if_pos rfl]
    rfl
  | case5 arg args hv harg ih =>
    unfold parseSwitchArgs occurrences
    rw [hv]
    dsimp only
    rw [if_neg harg, if_neg harg]
    exact ih value

/-! ## Inserting a blank value -/

theorem occurrences_value {arg v : String} (args : List String)
    (h : stripPrefix arg (flag ++ "=") = some v) :
    occurrences flag (arg :: args) = .value v :: occurrences flag args := by
  conv_lhs => unfold occurrences
  rw [h]

theorem occurrences_flag (v : String) (args : List String)
    (h : stripPrefix flag (flag ++ "=") = none) :
    occurrences flag (flag :: v :: args) = .value v :: occurrences flag args := by
  conv_lhs => unfold occurrences
  rw [h]
  exact if_pos rfl

theorem occurrences_other {arg : String} (args : List String)
    (h : stripPrefix arg (flag ++ "=") = none) (harg : arg ≠ flag) :
    occurrences flag (arg :: args) = occurrences flag args := by
  conv_lhs => unfold occurrences
  rw [h]
  exact if_neg harg

/-- What follows a complete list of arguments is read by itself. -/
theorem occurrences_append {args : List String} (rest : List String) (h : Complete flag args) :
    occurrences flag (args ++ rest) = occurrences flag args ++ occurrences flag rest := by
  induction args using occurrences.induct flag with
  | case1 => rfl
  | case2 arg args v hv ih =>
    unfold Complete at h
    rw [hv] at h
    rw [List.cons_append, occurrences_value _ hv, occurrences_value _ hv, ih h, List.cons_append]
  | case3 v args hv ih =>
    unfold Complete at h
    rw [hv] at h
    dsimp only at h
    rw [if_pos rfl] at h
    rw [List.cons_append, List.cons_append, occurrences_flag _ _ hv, occurrences_flag _ _ hv, ih h,
      List.cons_append]
  | case4 hv =>
    unfold Complete at h
    rw [hv] at h
    dsimp only at h
    rw [if_pos rfl] at h
    exact h.elim
  | case5 arg args hv harg ih =>
    unfold Complete at h
    rw [hv] at h
    dsimp only at h
    rw [if_neg harg] at h
    rw [List.cons_append, occurrences_other _ hv harg, occurrences_other _ hv harg, ih h]

theorem isPrefixOf?_append (l m : List Char) : l.isPrefixOf? (l ++ m) = some m := by
  induction l with
  | nil => rfl
  | cons c l ih => rw [List.cons_append, List.isPrefixOf?, if_pos (by simp), ih]

theorem isPrefixOf?_of_length_lt {l m : List Char} (h : m.length < l.length) :
    l.isPrefixOf? m = none := by
  induction l generalizing m with
  | nil => exact absurd h (Nat.not_lt_zero _)
  | cons c l ih =>
    cases m with
    | nil => rfl
    | cons d m =>
      rw [List.isPrefixOf?]
      split_ifs
      · exact ih (Nat.lt_of_succ_lt_succ h)
      · rfl

theorem stripPrefix_eq (v : String) : stripPrefix (flag ++ "=" ++ v) (flag ++ "=") = some v := by
  have happend : (flag ++ "=" ++ v).toList = (flag ++ "=").toList ++ v.toList := String.toList_append
  rw [stripPrefix, happend, isPrefixOf?_append, Option.map_some, String.ofList_toList]

theorem stripPrefix_flag : stripPrefix flag (flag ++ "=") = none := by
  rw [stripPrefix, isPrefixOf?_of_length_lt (by simp), Option.map_none]

/-- A blank value says nothing. -/
theorem lastOpinion_blank (os os' : List Occurrence) {v : String} (hv : IsBlank v) :
    lastOpinion failSafe (os ++ .value v :: os') = lastOpinion failSafe (os ++ os') := by
  have hnone : opinion failSafe (.value v) = none := if_pos hv
  rw [lastOpinion, lastOpinion, List.filterMap_append, List.filterMap_append, List.filterMap_cons,
    hnone]

/-- **A switch is the last opinion about it**, from the environment and then the arguments from left to
    right, or its default if there is none. An occurrence with a blank value between complete options
    can be inserted or removed, in either form. -/
theorem parse_switch_last_opinion (flag : String) (failSafe defaultOn : Bool)
    (envValue : Option String) :
    (∀ args, parseSwitchWith flag failSafe args envValue defaultOn
        = (lastOpinion failSafe (envValue.toList.map .value ++ occurrences flag args)).getD defaultOn)
      ∧ ∀ args rest v, Complete flag args → IsBlank v →
        parseSwitchWith flag failSafe (args ++ (flag ++ "=" ++ v) :: rest) envValue defaultOn
            = parseSwitchWith flag failSafe (args ++ rest) envValue defaultOn
          ∧ parseSwitchWith flag failSafe (args ++ flag :: v :: rest) envValue defaultOn
            = parseSwitchWith flag failSafe (args ++ rest) envValue defaultOn := by
  refine ⟨fun args => ?_, fun args rest v hargs hv => ?_⟩
  · rw [parseSwitchWith, parseSwitchArgs_eq]
    cases envValue with
    | none => rw [Option.bind_none, Option.or_none]; rfl
    | some v =>
      rw [Option.bind_some, asBool_eq, Option.toList_some, List.map_singleton, List.singleton_append,
        ← Option.or_none (o := lastOpinion failSafe (_ :: _)), lastOpinion_cons, Option.or_none]
  · simp only [parseSwitchWith, parseSwitchArgs_eq, occurrences_append _ hargs,
      occurrences_value _ (stripPrefix_eq _), occurrences_flag _ _ stripPrefix_flag,
      lastOpinion_blank _ _ hv, and_self]

/-- `--x off --x ""` is `--x off`. -/
theorem parse_switch_last_opinion_blank :
    parseSwitchWith "--x" false (["--x", "off"] ++ "--x" :: "" :: []) none true
      = parseSwitchWith "--x" false (["--x", "off"] ++ []) none true :=
  ((parse_switch_last_opinion "--x" false true none).2 ["--x", "off"] [] ""
    (by simp [Complete, stripPrefix, List.isPrefixOf?]) (by decide)).2

example : parseSwitchWith "--x" false ["--x", "off"] none true = false := by decide +kernel

end Cli
end MinerTim
