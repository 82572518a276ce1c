import Highlight.Unicode.Property
import Highlight.Unicode.Script

/-!
# Characters that writing systems share

Some characters that belong to no writing system in particular, or to another one, are used in
several.  The extension of a script holds its own characters and those that it shares in.
-/

namespace Highlight.Unicode

/-- The characters that a script shares in beside its own, for the scripts that have such. -/
def sharedCharacters : List (String × Table) :=
  [("adlam", .ofText "61F 640 204F 2E41"),
    ("arabic", .ofText "60C 61B 61F 640 64B-655 670 204F 2E41 FD3E-FD3F 102E0-102FB"),
    ("armenian", .ofText "308"),
    ("avestan", .ofText "B7 2E30-2E31"),
    ("bengali", .ofText
      "2BC 951-952 964-965 1CD0 1CD2 1CD5-1CD6 1CD8 1CE1 1CEA 1CED 1CF2 1CF5-1CF7 A8F1"),
    ("bopomofo", .ofText
      "2C7 2C9-2CB 2D9 3001-3003 3008-3011 3013-301F 302A-302D 3030 3037 30FB FE45-FE46 FF61-FF65"),
    ("buginese", .ofText "A9CF"),
    ("buhid", .ofText "1735-1736"),
    ("carian", .ofText "B7 205A 205D 2E31"),
    ("caucasianalbanian", .ofText "304 331 35E"),
    ("chakma", .ofText "9E6-9EF 1040-1049"),
    ("cherokee", .ofText "300-302 304 30B-30C 323-324 330-331"),
    ("coptic", .ofText "B7 300 304-305 307 374-375 2E17 102E0-102FB"),
    ("cypriot", .ofText "10100-10102 10107-10133 10137-1013F"),
    ("cyprominoan", .ofText "10100-10101"),
    ("cyrillic", .ofText "2BC 300-302 304 306 308 30B 311 485-486 1DF8 2E43"),
    ("devanagari", .ofText "2BC 951-952 964-965 1CD0-1CF6 1CF8-1CF9 20F0 A830-A839"),
    ("dogra", .ofText "964-96F A830-A839"),
    ("duployan", .ofText "B7 307-308 30A 323-324 2E3C 1BCA0-1BCA3"),
    ("elbasan", .ofText "B7 305"),
    ("ethiopic", .ofText "30E"),
    ("garay", .ofText "60C 61B 61F"),
    ("georgian", .ofText "B7 589 10FB 205A 2E31"),
    ("glagolitic", .ofText "B7 303 305 484 487 589 10FB 205A 2E43 A66F"),
    ("gothic", .ofText "B7 304-305 308 331"),
    ("grantha", .ofText
      "951-952 964-965 BE6-BF3 1CD0 1CD2-1CD3 1CF2-1CF4 1CF8-1CF9 20F0 1133B 11FD0-11FD1 11FD3"),
    ("greek", .ofText "B7 300-301 304 306 308 313 342 345 374 1DC0-1DC1 205D"),
    ("gujarati", .ofText "951-952 964-965 A830-A839"),
    ("gunjalagondi", .ofText "B7 964-965"),
    ("gurmukhi", .ofText "951-952 964-965 A830-A839"),
    ("gurungkhema", .ofText "965"),
    ("han", .ofText
      "B7 2FF0-2FFF 3001-3003 3006 3008-3011 3013-301F 302A-302D 3030 3037 303C-303F 30FB
      3190-319F 31C0-31E5 31EF 3220-3247 3280-32B0 32C0-32CB 32FF 3358-3370 337B-337F 33E0-33FE
      A700-A707 FE45-FE46 FF61-FF65 1D360-1D371 1F250-1F251"),
    ("hangul", .ofText "3001-3003 3008-3011 3013-301F 3030 3037 30FB FE45-FE46 FF61-FF65"),
    ("hanifirohingya", .ofText "60C 61B 61F 640 6D4"),
    ("hanunoo", .ofText "1735-1736"),
    ("hebrew", .ofText "307-308"),
    ("hiragana", .ofText
      "3001-3003 3008-3011 3013-301F 3030-3035 3037 303C-303D 3099-309C 30A0 30FB-30FC FE45-FE46
      FF61-FF65 FF70 FF9E-FF9F"),
    ("javanese", .ofText "A9CF"),
    ("kaithi", .ofText "966-96F 2E31 A830-A839"),
    ("kannada", .ofText "951-952 964-965 1CD0 1CD2-1CD3 1CDA 1CF2 1CF4 A830-A835"),
    ("katakana", .ofText
      "305 323 3001-3003 3008-3011 3013-301F 3030-3035 3037 303C-303D 3099-309C 30A0 30FB-30FC
      FE45-FE46 FF61-FF65 FF70 FF9E-FF9F"),
    ("kayahli", .ofText "A92E"),
    ("khojki", .ofText "AE6-AEF A830-A839"),
    ("khudawadi", .ofText "964-965 A830-A839"),
    ("latin", .ofText
      "B7 2BC 2C7 2C9-2CB 2CD 2D7 2D9 300-30E 310-311 313 323-325 32D-32E 330-331 358 35E 363-36F
      485-486 951-952 10FB 1DF8 202F 20F0 2E17 A700-A707 A92E"),
    ("limbu", .ofText "965"),
    ("lineara", .ofText "10107-10133"),
    ("linearb", .ofText "10100-10102 10107-10133 10137-1013F"),
    ("lisu", .ofText "2BC 2CD 300A-300B"),
    ("lycian", .ofText "205A"),
    ("lydian", .ofText "B7 2E31"),
    ("mahajani", .ofText "B7 964-96F A830-A839"),
    ("malayalam", .ofText "951-952 964-965 1CDA 1CF2 A830-A832"),
    ("mandaic", .ofText "640"),
    ("manichaean", .ofText "640"),
    ("masaramgondi", .ofText "964-965"),
    ("meroitichieroglyphs", .ofText "205D"),
    ("modi", .ofText "A830-A839"),
    ("mongolian", .ofText "1802-1803 1805 202F 3001-3002 3008-300B"),
    ("multani", .ofText "A66-A6F"),
    ("myanmar", .ofText "A92E"),
    ("nandinagari", .ofText "951 964-965 CE6-CEF 1CE9 1CF2 1CFA A830-A835"),
    ("newa", .ofText "951-952 1CD5 1CD7-1CD8 1CE2 1CE9 1CEB 1CED"),
    ("nko", .ofText "60C 61B 61F FD3E-FD3F"),
    ("olonal", .ofText "964-965"),
    ("oldhungarian", .ofText "205A 205D 2E31 2E41"),
    ("oldpermic", .ofText "B7 300 306-308 313 483"),
    ("oldturkic", .ofText "205A 2E30"),
    ("olduyghur", .ofText "640 10AF2"),
    ("oriya", .ofText "951-952 964-965 1CDA 1CF2"),
    ("osage", .ofText "301 304 30B 358"),
    ("phagspa", .ofText "1802-1803 1805 202F 3002"),
    ("psalterpahlavi", .ofText "640"),
    ("runic", .ofText "16EB-16ED"),
    ("samaritan", .ofText "2E31"),
    ("sharada", .ofText "951 1CD7 1CD9 1CDC-1CDD 1CE0 1CEA 1CED A830-A835 A838"),
    ("shavian", .ofText "B7"),
    ("sinhala", .ofText "964-965 1CF2"),
    ("sogdian", .ofText "640"),
    ("sunuwar", .ofText "300-301 303 30D 310 32D 331"),
    ("sylotinagri", .ofText "964-965 9E6-9EF"),
    ("syriac", .ofText
      "303-304 307-308 30A 323-325 32D-32E 330-331 60C 61B-61C 61F 640 64B-655 670 1DF8 1DFA"),
    ("tagalog", .ofText "1735-1736"),
    ("tagbanwa", .ofText "1735-1736"),
    ("taile", .ofText "300-301 307-308 30C 1040-1049"),
    ("takri", .ofText "964-965 A830-A839"),
    ("tamil", .ofText "951-952 964-965 1CDA A8F3 11301 11303 1133B-1133C"),
    ("tangut", .ofText "2FF0-2FFF 31EF"),
    ("telugu", .ofText "951-952 964-965 1CD5-1CD6 1CD8 1CDA 1CF2"),
    ("thaana", .ofText "60C 61B-61C 61F 660-669 FDF2 FDFD"),
    ("thai", .ofText "2BC 2D7 303 331"),
    ("tibetan", .ofText "3008-300B"),
    ("tifinagh", .ofText "302 304 306-309 323"),
    ("tirhuta", .ofText "951-952 964-965 1CD5 1CE2 1CF2 A830-A839"),
    ("todhri", .ofText "301 304 307 311 313 35E"),
    ("toto", .ofText "2BC"),
    ("tulutigalari", .ofText "CE6-CEF 1CF2 1CF4 A830-A835 A8F1"),
    ("yezidi", .ofText "60C 61B 61F 660-669"),
    ("yi", .ofText "3001-3002 3008-3011 3014-301B 30FB FF61-FF65")]

/-- The characters that some script shares in. -/
def sharedProperty : Property :=
  sharedCharacters.foldr (fun entry rest => .either (.listed entry.2) rest) (.listed ⟨#[]⟩)

/-- The extension of a script.  Of the characters that are common to all scripts or inherited from
the text before, those that belong to certain scripts are left out. -/
def Script.extension (script : Script) : Property :=
  if script.name == "common" || script.name == "inherited" then
    .except (.listed script.table) sharedProperty
  else
    match sharedCharacters.lookup script.name with
    | some shared => .either (.listed script.table) (.listed shared)
    | none => .listed script.table

end Highlight.Unicode
