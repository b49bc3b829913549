import CrdForge.Text.WordCharacter

/-! English plurals of lower-case words.

A word of the uncountable list is its own plural, a few words have irregular ones, and all others
go by rules on their endings. A rule keeps the word that ends in its stem and drops whatever stands
before that word, so the plural of a compound with a hyphen is the plural of its last part. -/
namespace CrdForge.Text.Plural

/-! ### Endings -/

/-- One position of a stem: any of the given characters, or anything but them. -/
inductive Slot where
  | among (chars : List Char)
  | outside (chars : List Char)

def Slot.accepts : Slot → Char → Bool
  | .among chars, c => chars.contains c
  | .outside chars, c => !chars.contains c

/-- A stem that is written out. -/
def exact (text : String) : List Slot := text.toList.map fun c => .among [c]

/-- A stem of one character among those given. -/
def among (chars : String) : List Slot := [.among chars.toList]

/-- A stem of one character that is not among those given. -/
def outside (chars : String) : List Slot := [.outside chars.toList]

/-- Words that end in one of the stems followed by one of the endings have the ending replaced. -/
structure Rule where
  stems : List (List Slot)
  endings : List String
  replacement : String

/-- Splits a reversed text after the ending, given reversed. -/
def dropEnding : List Char → List Char → Option (List Char)
  | text, [] => some text
  | [], _ :: _ => none
  | c :: text, e :: ending => if c = e then dropEnding text ending else none

/-- Splits a reversed text after a stem, given reversed: the stem's characters and what is left. -/
def splitStem : List Char → List Slot → Option (List Char × List Char)
  | text, [] => some ([], text)
  | [], _ :: _ => none
  | c :: text, slot :: stem =>
    if slot.accepts c then (splitStem text stem).map fun (taken, left) => (c :: taken, left) else none

/-- What a rule makes of a word: the word characters before the stem, the stem and the replacement. -/
def Rule.result? (rule : Rule) (word : String) : Option String :=
  let backwards := word.toList.reverse
  rule.endings.findSome? fun ending =>
    (dropEnding backwards ending.toList.reverse).bind fun beforeEnding =>
      rule.stems.findSome? fun stem =>
        (splitStem beforeEnding stem.reverse).map fun (taken, left) =>
          String.ofList ((taken ++ left.takeWhile isWordCharacter).reverse) ++ rule.replacement

/-! ### Words -/

/-- The rules, the first that applies wins. -/
def rules : List Rule := [
  ⟨[exact "eaux"], [""], ""⟩,
  ⟨[exact "child"], ["", "ren"], "ren"⟩,
  ⟨[exact "pe"], ["rson", "ople"], "ople"⟩,
  ⟨[exact "m", exact "l"], ["ice", "ouse"], "ice"⟩,
  ⟨["matr", "cod", "mur", "sil", "vert", "ind", "append"].map exact, ["ix", "ex"], "ices"⟩,
  ⟨["x", "ch", "ss", "sh", "zz"].map exact, [""], "es"⟩,
  ⟨["xes", "ches", "sses", "shes", "zzes"].map exact, [""], ""⟩,
  ⟨[outside "ch" ++ among "ieo" ++ among "ln"], ["ey"], "ies"⟩,
  ⟨[outside "aeiouy", exact "qu"], ["y"], "ies"⟩,
  ⟨["ar", "l", "ea", "eo", "oa", "hoo"].map exact, ["f"], "ves"⟩,
  ⟨["kni", "wi", "li"].map exact, ["fe"], "ves"⟩,
  ⟨[[]], ["sis"], "ses"⟩,
  ⟨["apheli", "hyperbat", "periheli", "asyndet", "noumen", "phenomen", "criteri", "organ", "prolegomen",
    "hedr", "automat"].map exact, ["a", "on"], "a"⟩,
  ⟨["agend", "addend", "millenni", "dat", "extrem", "bacteri", "desiderat", "strat", "candelabr", "errat",
    "ov", "symposi", "curricul", "automat", "quor"].map exact, ["a", "um"], "a"⟩,
  ⟨["her", "at", "gr"].map exact, ["o"], "oes"⟩,
  ⟨["seraph", "cherub"].map exact, ["", "im"], "im"⟩,
  ⟨["alumn", "alg", "vertebr"].map exact, ["a", "ae"], "ae"⟩,
  ⟨["alumn", "syllab", "octop", "vir", "radi", "nucle", "fung", "cact", "stimul", "termin", "bacill", "foc",
    "uter", "loc", "strat"].map exact, ["us", "i"], "i"⟩,
  ⟨[outside "l" ++ exact "ias", among "aeiou" ++ exact "las", among "emjzr" ++ exact "as",
    among "iu" ++ exact "am"], [""], ""⟩,
  ⟨[exact "e" ++ among "mn" ++ exact "u"], ["", "s"], "s"⟩,
  ⟨[exact "alias", outside "aou" ++ exact "us", exact "tlas", exact "gas", exact "ris"], [""], "es"⟩,
  ⟨["ax", "test"].map exact, ["is"], "es"⟩,
  ⟨[outside "aeiou" ++ exact "ese"], [""], ""⟩,
  ⟨[[]], ["s"], "s"⟩]

/-- Words with a plural of their own. -/
def irregular : List (String × String) := [
  ("ox", "oxen"), ("man", "men"), ("woman", "women"), ("die", "dice"), ("yes", "yeses"), ("foot", "feet"),
  ("eave", "eaves"), ("goose", "geese"), ("tooth", "teeth"), ("quiz", "quizzes")]

/-- Words that are their own plural. -/
def uncountable : List String := [
  "accommodation", "adulthood", "advertising", "advice", "aggression", "aid", "air", "aircraft",
  "alcohol", "anger", "applause", "arithmetic", "assistance", "athletics", "bacon", "baggage", "beef",
  "biology", "blood", "botany", "bread", "butter", "carbon", "cardboard", "cash", "chalk", "chaos",
  "chess", "crossroads", "countryside", "dancing", "deer", "dignity", "dirt", "dust", "economics",
  "education", "electricity", "engineering", "enjoyment", "envy", "equipment", "ethics", "evidence",
  "evolution", "fame", "fiction", "flour", "flu", "food", "fuel", "fun", "furniture", "gallows",
  "garbage", "garlic", "genetics", "gold", "golf", "gossip", "grammar", "gratitude", "grief", "guilt",
  "gymnastics", "happiness", "hardware", "harm", "hate", "hatred", "health", "heat", "help", "homework",
  "honesty", "honey", "hospitality", "housework", "humour", "hunger", "hydrogen", "ice", "importance",
  "inflation", "information", "innocence", "iron", "irony", "jam", "jewelry", "judo", "karate",
  "knowledge", "lack", "laughter", "lava", "leather", "leisure", "lightning", "linguine", "linguini",
  "linguistics", "literature", "litter", "livestock", "logic", "loneliness", "luck", "luggage",
  "macaroni", "machinery", "magic", "management", "mankind", "marble", "mathematics", "mayonnaise",
  "measles", "methane", "milk", "money", "mud", "music", "mumps", "nature", "news", "nitrogen",
  "nonsense", "nurture", "nutrition", "obedience", "obesity", "oxygen", "pasta", "patience", "physics",
  "poetry", "pollution", "poverty", "pride", "psychology", "publicity", "punctuation", "quartz",
  "racism", "relaxation", "reliability", "research", "respect", "revenge", "rice", "rubbish", "rum",
  "safety", "scenery", "seafood", "seaside", "series", "shame", "sheep", "shopping", "sleep", "smoke",
  "smoking", "snow", "soap", "software", "soil", "spaghetti", "species", "steam", "stuff", "stupidity",
  "sunshine", "symmetry", "tennis", "thirst", "thunder", "timber", "traffic", "transportation", "trust",
  "underwear", "unemployment", "unity", "validity", "veal", "vegetation", "vegetarianism", "vengeance",
  "violence", "vitality", "warmth", "wealth", "weather", "welfare", "wheat", "wildlife", "wisdom",
  "yoga", "zinc", "zoology"]

end Plural

/-- The plural of a lower-case word. -/
def plural (word : String) : String :=
  if Plural.uncountable.contains word then word
  else match Plural.irregular.lookup word with
    | some own => own
    | none => match Plural.rules.findSome? (·.result? word) with
      | some changed => changed
      | none => word ++ "s"

end CrdForge.Text
