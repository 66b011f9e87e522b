/-
Where a text may be cut: the classes of characters that decide it, for the boundaries of what a
reader sees as one character, of words and of sentences. A character of no class given here belongs
to the class of all others, which has no name.
-/
import Codemod.Unicode.Property

namespace Codemod.Unicode

/-- Classes for the boundaries of characters as a reader sees them. The two classes of whole Hangul
syllables are not listed. -/
def graphemeBreakTable : List Property := [
  ⟨["control", "cn"], ["cf", "cc", "zl", "zp"],
    "A D 600-605 6DD 70F 890-891 8E2 200C-200D 2065 FFF0-FFF8 110BD 110CD E0000 E0002-E00FF
    E01F0-E0FFF"⟩,
  ⟨["cr"], [],
    "D"⟩,
  ⟨["extend", "ex"], ["mn", "me"],
    "9BE 9D7 B3E B57 BBE BD7 CC0 CC2 CC7-CC8 CCA-CCB CD5-CD6 D3E D57 DCF DDF 1715 1734 1B35 1B3B
    1B3D 1B43-1B44 1BAA 1BF2-1BF3 200C 302E-302F A953 A9C0 FF9E-FF9F 111C0 11235 1133E 1134D
    11357 113B8 113C2 113C5 113C7-113C9 113CF 114B0 114BD 115AF 116B6 11930 1193D 11F41
    16FF0-16FF1 1D165-1D166 1D16D-1D172 1F3FB-1F3FF E0020-E007F"⟩,
  ⟨["l"], [],
    "1100-115F A960-A97C"⟩,
  ⟨["lf"], [],
    "A"⟩,
  ⟨["prepend", "pp"], [],
    "600-605 6DD 70F 890-891 8E2 D4E 110BD 110CD 111C2-111C3 113D1 1193F 11941 11A3A 11A84-11A89
    11D46 11F02"⟩,
  ⟨["regionalindicator", "ri"], [],
    "1F1E6-1F1FF"⟩,
  ⟨["spacingmark", "sm"], ["mc"],
    "9BE 9D7 B3E B57 BBE BD7 CC0 CC2 CC7-CC8 CCA-CCB CD5-CD6 D3E D57 DCF DDF E33 EB3 102B-102C
    1038 1062-1064 1067-106D 1083 1087-108C 108F 109A-109C 1715 1734 1A61 1A63-1A64 1B35 1B3B
    1B3D 1B43-1B44 1BAA 1BF2-1BF3 302E-302F A953 A9C0 AA7B AA7D 111C0 11235 1133E 1134D 11357
    113B8 113C2 113C5 113C7-113C9 113CF 114B0 114BD 115AF 116B6 11720-11721 11930 1193D 11F41
    16FF0-16FF1 1D165-1D166 1D16D-1D172"⟩,
  ⟨["t"], [],
    "11A8-11FF D7CB-D7FB"⟩,
  ⟨["v"], [],
    "1160-11A7 D7B0-D7C6 16D63 16D67-16D6A"⟩,
  ⟨["zwj"], [],
    "200D"⟩]

/-- Classes for the boundaries of words. -/
def wordBreakTable : List Property := [
  ⟨["aletter", "le"], ["lu", "ll", "lt", "lm", "lo", "nl"],
    "2C2-2C5 2D2-2D7 2DE-2DF 2E5-2EB 2ED 2EF-2FF 55A-55C 55E 58A 5D0-5EA 5EF-5F3 70F E01-E30
    E32-E33 E40-E46 E81-E82 E84 E86-E8A E8C-EA3 EA5 EA7-EB0 EB2-EB3 EBD EC0-EC4 EC6 EDC-EDF
    1000-102A 103F 1050-1055 105A-105D 1061 1065-1066 106E-1070 1075-1081 108E 1780-17B3 17D7
    17DC 1950-196D 1970-1974 1980-19AB 19B0-19C9 1A20-1A54 1AA7 24B6-24E9 3006-3007 3021-3029
    3031-3035 3038-303A 3041-3096 309D-309F 30A1-30FA 30FC-30FF 31F0-31FF 3400-4DBF 4E00-9FFF
    A708-A716 A720-A721 A789-A78A A9E0-A9E4 A9E6-A9EF A9FA-A9FE AA60-AA76 AA7A AA7E-AAAF AAB1
    AAB5-AAB6 AAB9-AABD AAC0 AAC2 AADB-AADD AB5B F900-FA6D FA70-FAD9 FB1D FB1F-FB28 FB2A-FB36
    FB38-FB3C FB3E FB40-FB41 FB43-FB44 FB46-FB4F FF66-FF9F 11700-1171A 11740-11746 17000-187F7
    18800-18CD5 18CFF-18D08 1AFF0-1AFF3 1AFF5-1AFFB 1AFFD-1AFFE 1B000-1B122 1B132 1B150-1B152
    1B155 1B164-1B167 1B170-1B2FB 1F130-1F149 1F150-1F169 1F170-1F189 20000-2A6DF 2A700-2B739
    2B740-2B81D 2B820-2CEA1 2CEB0-2EBE0 2EBF0-2EE5D 2F800-2FA1D 30000-3134A 31350-323AF"⟩,
  ⟨["cr"], [],
    "D"⟩,
  ⟨["doublequote", "dq"], [],
    "22"⟩,
  ⟨["extend"], ["mn", "mc", "me"],
    "200C FF9E-FF9F 1F3FB-1F3FF E0020-E007F"⟩,
  ⟨["extendnumlet", "ex"], ["pc"],
    "202F"⟩,
  ⟨["format", "fo"], ["cf"],
    "600-605 6DD 70F 890-891 8E2 200B-200D 110BD 110CD E0020-E007F"⟩,
  ⟨["hebrewletter", "hl"], [],
    "5D0-5EA 5EF-5F2 FB1D FB1F-FB28 FB2A-FB36 FB38-FB3C FB3E FB40-FB41 FB43-FB44 FB46-FB4F"⟩,
  ⟨["katakana", "ka"], [],
    "3031-3035 309B-309C 30A0-30FA 30FC-30FF 31F0-31FF 32D0-32FE 3300-3357 FF66-FF9D 1AFF0-1AFF3
    1AFF5-1AFFB 1AFFD-1AFFE 1B000 1B120-1B122 1B155 1B164-1B167"⟩,
  ⟨["lf"], [],
    "A"⟩,
  ⟨["midletter", "ml"], [],
    "3A B7 387 55F 5F4 2027 FE13 FE55 FF1A"⟩,
  ⟨["midnum", "mn"], [],
    "2C 3B 37E 589 60C-60D 66C 7F8 2044 FE10 FE14 FE50 FE54 FF0C FF1B"⟩,
  ⟨["midnumlet", "mb"], [],
    "2E 2018-2019 2024 FE52 FF07 FF0E"⟩,
  ⟨["newline", "nl"], [],
    "B-C 85 2028-2029"⟩,
  ⟨["numeric", "nu"], ["nd"],
    "600-605 66B 6DD 890-891 8E2 110BD 110CD"⟩,
  ⟨["regionalindicator", "ri"], [],
    "1F1E6-1F1FF"⟩,
  ⟨["singlequote", "sq"], [],
    "27"⟩,
  ⟨["wsegspace"], [],
    "20 1680 2000-2006 2008-200A 205F 3000"⟩,
  ⟨["zwj"], [],
    "200D"⟩]

/-- Classes for the boundaries of sentences. -/
def sentenceBreakTable : List Property := [
  ⟨["aterm", "at"], [],
    "2E 2024 FE52 FF0E"⟩,
  ⟨["close", "cl"], ["ps", "pe", "pi", "pf"],
    "22 27 275B-2760 2E00-2E01 2E06-2E08 2E0B 1F676-1F678"⟩,
  ⟨["cr"], [],
    "D"⟩,
  ⟨["extend", "ex"], ["mn", "mc", "me"],
    "200C-200D FF9E-FF9F E0020-E007F"⟩,
  ⟨["format", "fo"], ["cf"],
    "600-605 6DD 890-891 8E2 200C-200D 110BD 110CD E0020-E007F"⟩,
  ⟨["lf"], [],
    "A"⟩,
  ⟨["lower", "lo"], ["ll"],
    "AA BA 2B0-2B8 2C0-2C1 2E0-2E4 37A 10D0-10FA 10FC-10FF 1D2C-1D6A 1D78 1D9B-1DBF 2071 207F
    2090-209C 2170-217F 24D0-24E9 2C7C-2C7D A69C-A69D A770 A7F2-A7F4 A7F8-A7F9 AB5C-AB5F AB69
    10780 10783-10785 10787-107B0 107B2-107BA 1E030-1E06D"⟩,
  ⟨["numeric", "nu"], ["nd"],
    "600-605 66B-66C 6DD 890-891 8E2 110BD 110CD"⟩,
  ⟨["oletter", "le"], ["lm", "lo", "nl"],
    "AA BA 2B0-2B8 2C0-2C1 2E0-2E4 37A 5F3 10D0-10FA 10FC-10FF 1C90-1CBA 1CBD-1CBF 1D2C-1D6A 1D78
    1D9B-1DBF 2071 207F 2090-209C 2160-217F 2C7C-2C7D A69C-A69D A770 A7F2-A7F4 A7F8-A7F9
    AB5C-AB5F AB69 FF9E-FF9F 10780 10783-10785 10787-107B0 107B2-107BA 1E030-1E06D"⟩,
  ⟨["scontinue", "sc"], [],
    "2C-2D 3A-3B 37E 55D 60C-60D 7F8 1802 1808 2013-2014 3001 FE10-FE11 FE13-FE14 FE31-FE32
    FE50-FE51 FE54-FE55 FE58 FE63 FF0C-FF0D FF1A-FF1B FF64"⟩,
  ⟨["sep", "se"], [],
    "85 2028-2029"⟩,
  ⟨["sp"], ["zs"],
    "9 B-C"⟩,
  ⟨["sterm", "st"], [],
    "21 3F 589 61D-61F 6D4 700-702 7F9 837 839 83D-83E 964-965 104A-104B 1362 1367-1368 166E
    1735-1736 17D4-17D5 1803 1809 1944-1945 1AA8-1AAB 1B4E-1B4F 1B5A-1B5B 1B5E-1B5F 1B7D-1B7F
    1C3B-1C3C 1C7E-1C7F 203C-203D 2047-2049 2CF9-2CFB 2E2E 2E3C 2E53-2E54 3002 A4FF A60E-A60F
    A6F3 A6F7 A876-A877 A8CE-A8CF A92F A9C8-A9C9 AA5D-AA5F AAF0-AAF1 ABEB FE12 FE15-FE16
    FE56-FE57 FF01 FF1F FF61 10A56-10A57 10F55-10F59 10F86-10F89 11047-11048 110BE-110C1
    11141-11143 111C5-111C6 111CD 111DE-111DF 11238-11239 1123B-1123C 112A9 113D4-113D5
    1144B-1144C 115C2-115C3 115C9-115D7 11641-11642 1173C-1173E 11944 11946 11A42-11A43
    11A9B-11A9C 11C41-11C42 11EF7-11EF8 11F43-11F44 16A6E-16A6F 16AF5 16B37-16B38 16B44
    16D6E-16D6F 16E98 1BC9F 1DA88"⟩,
  ⟨["upper", "up"], ["lu", "lt"],
    "1C90-1CBA 1CBD-1CBF 2160-216F 24B6-24CF 1F130-1F149 1F150-1F169 1F170-1F189"⟩]

def lookup? (table : List Property) (name : String) : Option CharSet :=
  (table.find? fun p => p.names.contains name).map Property.toSet

/-- Hangul syllables without a final consonant: every twenty-eighth from the first one on. -/
def openSyllables : CharSet :=
  ⟨(List.range 399).map fun i => (0xAC00 + 28 * i, 0xAC00 + 28 * i)⟩

/-- Hangul syllables with a final consonant, which fill the gaps. -/
def closedSyllables : CharSet :=
  ⟨(List.range 399).map fun i => (0xAC01 + 28 * i, 0xAC1B + 28 * i)⟩

def graphemeBreak? (name : String) : Option CharSet :=
  match name with
  | "lv" => some openSyllables
  | "lvt" => some closedSyllables
  | name => lookup? graphemeBreakTable name

def wordBreak? (name : String) : Option CharSet := lookup? wordBreakTable name

def sentenceBreak? (name : String) : Option CharSet := lookup? sentenceBreakTable name

end Codemod.Unicode
