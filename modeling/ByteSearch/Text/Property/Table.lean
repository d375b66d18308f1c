/-!
# Unicode properties that categories do not settle

Each property is the union of some general categories and the code points listed here, which the
Unicode standard adds to them: `Other_Alphabetic`, `Other_Grapheme_Extend`, the letters that count
as word characters without being letters by category, and the cased letters outside `Lu` and `Ll`.
-/

namespace ByteSearch.Text.Property

/-- Alphabetic code points that are neither letters nor letter numbers. -/
def otherAlphabetic : List String := [
  "0345 05B0-05BD 05BF 05C1-05C2 05C4-05C5 05C7 0610-061A 064B-0657 0659-065F 0670 06D6-06DC",
  "06E1-06E4 06E7-06E8 06ED 0711 0730-073F 07A6-07B0 0816-0817 081B-0823 0825-0827 0829-082C",
  "08D4-08DF 08E3-08E9 08F0-0903 093A-093B 093E-094C 094E-094F 0955-0957 0962-0963 0981-0983",
  "09BE-09C4 09C7-09C8 09CB-09CC 09D7 09E2-09E3 0A01-0A03 0A3E-0A42 0A47-0A48 0A4B-0A4C 0A51",
  "0A70-0A71 0A75 0A81-0A83 0ABE-0AC5 0AC7-0AC9 0ACB-0ACC 0AE2-0AE3 0AFA-0AFC 0B01-0B03",
  "0B3E-0B44 0B47-0B48 0B4B-0B4C 0B56-0B57 0B62-0B63 0B82 0BBE-0BC2 0BC6-0BC8 0BCA-0BCC 0BD7",
  "0C00-0C04 0C3E-0C44 0C46-0C48 0C4A-0C4C 0C55-0C56 0C62-0C63 0C81-0C83 0CBE-0CC4 0CC6-0CC8",
  "0CCA-0CCC 0CD5-0CD6 0CE2-0CE3 0CF3 0D00-0D03 0D3E-0D44 0D46-0D48 0D4A-0D4C 0D57 0D62-0D63",
  "0D81-0D83 0DCF-0DD4 0DD6 0DD8-0DDF 0DF2-0DF3 0E31 0E34-0E3A 0E4D 0EB1 0EB4-0EB9 0EBB-0EBC",
  "0ECD 0F71-0F83 0F8D-0F97 0F99-0FBC 102B-1036 1038 103B-103E 1056-1059 105E-1060 1062-1064",
  "1067-106D 1071-1074 1082-108D 108F 109A-109D 1712-1713 1732-1733 1752-1753 1772-1773",
  "17B6-17C8 1885-1886 18A9 1920-192B 1930-1938 1A17-1A1B 1A55-1A5E 1A61-1A74 1ABF-1AC0",
  "1ACC-1ACE 1B00-1B04 1B35-1B43 1B80-1B82 1BA1-1BA9 1BAC-1BAD 1BE7-1BF1 1C24-1C36 1DE7-1DF4",
  "24B6-24E9 2DE0-2DFF A674-A67B A69E-A69F A802 A80B A823-A827 A880-A881 A8B4-A8C3 A8C5 A8FF",
  "A926-A92A A947-A952 A980-A983 A9B4-A9BF A9E5 AA29-AA36 AA43 AA4C-AA4D AA7B-AA7D AAB0",
  "AAB2-AAB4 AAB7-AAB8 AABE AAEB-AAEF AAF5 ABE3-ABEA FB1E 10376-1037A 10A01-10A03 10A05-10A06",
  "10A0C-10A0F 10D24-10D27 10EAB-10EAC 11000-11002 11038-11045 11073-11074 11080-11082",
  "110B0-110B8 110C2 11100-11102 11127-11132 11145-11146 11180-11182 111B3-111BF 111CE-111CF",
  "1122C-11234 11237 1123E 11241 112DF-112E8 11300-11303 1133E-11344 11347-11348 1134B-1134C",
  "11357 11362-11363 11435-11441 11443-11445 114B0-114C1 115AF-115B5 115B8-115BE 115DC-115DD",
  "11630-1163E 11640 116AB-116B5 1171D-1172A 1182C-11838 11930-11935 11937-11938 1193B-1193C",
  "11940 11942 119D1-119D7 119DA-119DF 119E4 11A01-11A0A 11A35-11A39 11A3B-11A3E 11A51-11A5B",
  "11A8A-11A97 11C2F-11C36 11C38-11C3E 11C92-11CA7 11CA9-11CB6 11D31-11D36 11D3A 11D3C-11D3D",
  "11D3F-11D41 11D43 11D47 11D8A-11D8E 11D90-11D91 11D93-11D96 11EF3-11EF6 11F00-11F01 11F03",
  "11F34-11F3A 11F3E-11F40 16F4F 16F51-16F87 16F8F-16F92 16FF0-16FF1 1BC9E 1E000-1E006",
  "1E008-1E018 1E01B-1E021 1E023-1E024 1E026-1E02A 1E08F 1E947 1F130-1F149 1F150-1F169",
  "1F170-1F189"]

/-- Code points that extend a grapheme and are neither nonspacing nor enclosing marks. -/
def otherGraphemeExtend : List String := [
  "09BE 09D7 0B3E 0B57 0BBE 0BD7 0CC2 0CD5-0CD6 0D3E 0D57 0DCF 0DDF 1B35 200C 302E-302F",
  "FF9E-FF9F 1133E 11357 114B0 114BD 115AF 11930 1D165 1D16E-1D172 E0020-E007F"]

/-- Word characters that are no letters, marks, decimal digits or connectors: the joiners and the
circled letters. -/
def otherWord : List String := [
  "200C-200D 24B6-24E9 1F130-1F149 1F150-1F169 1F170-1F189"]

/-- Lowercase code points outside the category `Ll`. -/
def otherLowercase : List String := [
  "00AA 00BA 02B0-02B8 02C0-02C1 02E0-02E4 0345 037A 10FC 1D2C-1D6A 1D78 1D9B-1DBF 2071 207F",
  "2090-209C 2170-217F 24D0-24E9 2C7C-2C7D A69C-A69D A770 A7F2-A7F4 A7F8-A7F9 AB5C-AB5F AB69",
  "10780 10783-10785 10787-107B0 107B2-107BA 1E030-1E06D"]

/-- Uppercase code points outside the category `Lu`. -/
def otherUppercase : List String := [
  "2160-216F 24B6-24CF 1F130-1F149 1F150-1F169 1F170-1F189"]

end ByteSearch.Text.Property
