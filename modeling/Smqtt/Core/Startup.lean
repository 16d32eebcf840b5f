import Smqtt.Core.Db

/-!
How the server starts: the command line, the check of the configuration and the signing
key. The arguments are read in one pass that stops at a request for help; what it finds is
what a reading of the whole line finds.
-/

namespace Smqtt

inductive Invocation
  | help
  | start (cfgPath : String) (envPath : Option String)
  deriving DecidableEq

def stripPrefix (text word : String) : Option String :=
  if word.toList.isPrefixOf text.toList then
    some (String.ofList (text.toList.drop word.toList.length))
  else none

def envAssignment : String := "--env="

/-- The pass over the arguments; it returns nothing when it has printed the help. -/
def readArgs : (cfgPath envPath : Option String) → List String →
    Option (Option String × Option String)
  | cfgPath, envPath, [] => some (cfgPath, envPath)
  | cfgPath, envPath, arg :: args =>
      if arg = "--help" ∨ arg = "-h" then none
      else if arg = "--env" then
        match args with
        | [] => some (cfgPath, none)
        | file :: args => readArgs cfgPath (some file) args
      else
        match stripPrefix arg envAssignment with
        | some file => readArgs cfgPath (some file) args
        | none => readArgs (cfgPath.or (some arg)) envPath args

/-- `smqttConfig` is the `SMQTT_CONFIG` of the environment. -/
def parseArgs (smqttConfig : Option String) (args : List String) : Invocation :=
  match readArgs none none args with
  | none => .help
  | some (cfgPath, envPath) => .start ((cfgPath.or smqttConfig).getD "smqtt.toml") envPath

inductive Argument
  | help
  | env (file : Option String)
  | config (path : String)
  deriving DecidableEq

abbrev isHelp (word : String) : Prop := word = "--help" ∨ word = "-h"

/-- The words of a command line. The word after `--env` is its file, whatever it looks
like, and every word that is no option is a path. -/
inductive Spells : List Argument → List String → Prop
  | nil : Spells [] []
  | help {word : String} {reading : List Argument} {args : List String} (asks : isHelp word)
      (rest : Spells reading args) : Spells (.help :: reading) (word :: args)
  | env (file : String) {reading : List Argument} {args : List String}
      (rest : Spells reading args) :
      Spells (.env (some file) :: reading) ("--env" :: file :: args)
  | last : Spells [.env none] ["--env"]
  | assigned (file : String) {reading : List Argument} {args : List String}
      (rest : Spells reading args) :
      Spells (.env (some file) :: reading) ((envAssignment ++ file) :: args)
  | config {path : String} {reading : List Argument} {args : List String}
      (asks : ¬isHelp path) (bare : path ≠ "--env")
      (assigns : stripPrefix path envAssignment = none)
      (rest : Spells reading args) : Spells (.config path :: reading) (path :: args)

def Argument.path : Argument → Option String
  | .config path => some path
  | _ => none

def Argument.file : Argument → Option (Option String)
  | .env file => some file
  | _ => none

/-- The first path and the last file count. -/
def meaning (smqttConfig : Option String) (reading : List Argument) : Invocation :=
  if .help ∈ reading then .help
  else .start ((((reading.filterMap Argument.path).head?).or smqttConfig).getD "smqtt.toml")
    (((reading.filterMap Argument.file).getLast?).getD none)

theorem stripPrefix_append (word file : String) : stripPrefix (word ++ file) word = some file := by
  simp [stripPrefix]

theorem eq_of_stripPrefix {text word file : String} (strips : stripPrefix text word = some file) :
    text = word ++ file := by
  unfold stripPrefix at strips
  split at strips
  · rename_i pre
    obtain ⟨rest, eq⟩ := List.isPrefixOf_iff_prefix.mp pre
    obtain rfl := Option.some.inj strips
    rw [← eq, List.drop_left, ← String.toList_inj, String.toList_append, String.toList_ofList, eq]
  · cases strips

theorem assigned_plain (file : String) :
    ¬isHelp (envAssignment ++ file) ∧ envAssignment ++ file ≠ "--env" := by
  have six : (envAssignment ++ file).toList = ['-', '-', 'e', 'n', 'v', '='] ++ file.toList := by
    rw [String.toList_append]
    rfl
  refine ⟨?_, fun same => ?_⟩
  · rintro (same | same)
    · rw [same] at six
      simp at six
    · rw [same] at six
      simp at six
  · rw [same] at six
    simp at six

theorem readArgs_env (cfgPath envPath : Option String) (file : String) (args : List String) :
    readArgs cfgPath envPath ("--env" :: file :: args) = readArgs cfgPath (some file) args := by
  rw [readArgs.eq_def]
  simp

theorem readArgs_assigned (cfgPath envPath : Option String) (file : String) (args : List String) :
    readArgs cfgPath envPath ((envAssignment ++ file) :: args) =
      readArgs cfgPath (some file) args := by
  obtain ⟨asks, bare⟩ := assigned_plain file
  rw [readArgs.eq_def]
  dsimp only
  rw [if_neg asks, if_neg bare, stripPrefix_append]

theorem readArgs_config {path : String} (asks : ¬isHelp path) (bare : path ≠ "--env")
    (assigns : stripPrefix path envAssignment = none) (cfgPath envPath : Option String)
    (args : List String) : readArgs cfgPath envPath (path :: args) =
      readArgs (cfgPath.or (some path)) envPath args := by
  rw [readArgs.eq_def]
  dsimp only
  rw [if_neg asks, if_neg bare, assigns]

theorem last_file (file envPath : Option String) (reading : List Argument) :
    (((.env file :: reading).filterMap Argument.file).getLast?).getD envPath =
      ((reading.filterMap Argument.file).getLast?).getD file := by
  simp [Argument.file, List.getLast?_cons]

/-- The pass finds the first path, unless it has one, and the last file. -/
theorem readArgs_spells {reading : List Argument} {args : List String}
    (spells : Spells reading args) (cfgPath envPath : Option String) :
    readArgs cfgPath envPath args = if .help ∈ reading then none
      else some (cfgPath.or (reading.filterMap Argument.path).head?,
        ((reading.filterMap Argument.file).getLast?).getD envPath) := by
  induction spells generalizing cfgPath envPath with
  | nil => simp [readArgs]
  | help asks rest ih =>
      rw [readArgs.eq_def]
      dsimp only
      rw [if_pos asks, if_pos List.mem_cons_self]
  | env file rest ih =>
      rw [readArgs_env, ih, last_file]
      simp [Argument.path, List.findSome?_cons]
  | last => simp [readArgs, Argument.path, Argument.file]
  | assigned file rest ih =>
      rw [readArgs_assigned, ih, last_file]
      simp [Argument.path, List.findSome?_cons]
  | @config path reading args asks bare assigns rest ih =>
      rw [readArgs_config asks bare assigns, ih, Option.or_assoc]
      simp [Argument.path, Argument.file]

/-- Every command line has a reading. -/
theorem exists_reading (args : List String) : ∃ reading, Spells reading args := by
  induction h : args.length using Nat.strongRecOn generalizing args with
  | ind n ih =>
      subst h
      cases args with
      | nil => exact ⟨[], .nil⟩
      | cons arg args =>
          obtain ⟨reading, rest⟩ := ih args.length (Nat.lt_succ_self _) args rfl
          by_cases asks : isHelp arg
          · exact ⟨_, .help asks rest⟩
          · by_cases bare : arg = "--env"
            · subst bare
              cases args with
              | nil => exact ⟨_, .last⟩
              | cons file args =>
                  have shorter : args.length < ("--env" :: file :: args).length :=
                    Nat.lt_succ_of_lt (Nat.lt_succ_self _)
                  obtain ⟨reading, rest⟩ := ih args.length shorter args rfl
                  exact ⟨_, .env file rest⟩
            · cases assigns : stripPrefix arg envAssignment with
              | none => exact ⟨_, .config asks bare assigns rest⟩
              | some file =>
                  rw [eq_of_stripPrefix assigns]
                  exact ⟨_, .assigned file rest⟩

theorem parseArgs_spells {reading : List Argument} {args : List String}
    (spells : Spells reading args) (smqttConfig : Option String) :
    parseArgs smqttConfig args = meaning smqttConfig reading := by
  unfold parseArgs meaning
  rw [readArgs_spells spells]
  by_cases asks : .help ∈ reading
  · rw [if_pos asks, if_pos asks]
  · rw [if_neg asks, if_neg asks, Option.none_or]

/-- The command line means what its words say. -/
theorem parseArgs_iff (smqttConfig : Option String) (args : List String) (r : Invocation) :
    parseArgs smqttConfig args = r ↔
      ∃ reading, Spells reading args ∧ r = meaning smqttConfig reading := by
  constructor
  · rintro rfl
    obtain ⟨reading, spells⟩ := exists_reading args
    exact ⟨reading, spells, parseArgs_spells spells smqttConfig⟩
  · rintro ⟨reading, spells, rfl⟩
    exact parseArgs_spells spells smqttConfig

/-- The word after `--env` is its file even if it asks for help, and a last `--env` takes
back the file before it. -/
example : parseArgs none ["--env", "-h", "a.toml", "b.toml", "--env"] = .start "a.toml" none := by
  decide +kernel

def Config.validate (config : Config) : Except String Unit :=
  if config.adminApiKey = "" then
    .error "admin.api_key is not set.\nGenerate one with: openssl rand -hex 32"
  else .ok ()

def JwtKeys.fromBase64 (lib : Libraries) (b64 : String) : Except String JwtKeys :=
  match Base64Url.decode b64 with
  | some raw => .ok ⟨raw⟩
  | none => .error (lib.base64Error b64)

/-- What `main` builds before it serves. -/
def AppState.load (config : Config) (signingKey : String) (lib : Libraries) (outside : Outside) :
    Except String AppState := do
  config.validate
  let jwtKeys ← JwtKeys.fromBase64 lib signingKey
  return ⟨config, jwtKeys, lib, outside⟩

theorem load_validated {config : Config} {signingKey : String} {lib : Libraries}
    {outside : Outside} {A : AppState}
    (loaded : AppState.load config signingKey lib outside = .ok A) :
    A.config.adminApiKey ≠ "" := by
  unfold AppState.load Config.validate at loaded
  split at loaded
  · cases loaded
  · rename_i set
    cases keys : JwtKeys.fromBase64 lib signingKey with
    | error e =>
        rw [keys] at loaded
        cases loaded
    | ok jwtKeys =>
        rw [keys] at loaded
        obtain rfl := Except.ok.inj loaded
        exact set

end Smqtt
